import Hwfa.DiscoveryPublications

/-!
The keys that a device holds, against the ones Discovery publishes for it:
`onboard`, `requestOtp`, `confirmOtp`, `resume`, `linkWithCode` and
`maintainPreKeys` of `packages/client/src/client.ts`, over the Discovery service.

A call runs to its end before the next one begins.  Each of its requests may not
get through, or its answer may not; opening the relay may fail.  Between the
calls time passes, and anybody else sends requests to Discovery, which may also
restart; only uploading prekeys for an account of this device takes a token of
its own.  What the provider holds is named by the public halves.  A restart of
the app leaves it its keys.
-/

namespace Hwfa.ClientOnboarding

open Hwfa.Machines Hwfa.Maps Hwfa.DiscoveryStore Hwfa.DiscoveryService Hwfa.DiscoveryRecords
  Hwfa.DiscoveryCredentials Hwfa.DiscoveryPrekeys Hwfa.DiscoveryPublications

/-- How far a request gets. -/
inductive Net where
  | unsent
  /-- the answer does not come back -/
  | lost
  | replied
  deriving DecidableEq

/-- How a request goes, and whether the file write during it goes through. -/
structure Sent where
  net : Net
  wrote : Bool

/-- What `generateRegistration` mints. -/
structure Registration where
  registrationID : Int64
  deviceID : Int64
  longTerm : LongTermKeys
  oneTimePreKeys : List OneTimePreKey
  deriving DecidableEq

def Registration.request (keys : Registration) (phoneNumber : String) : RegisterRequest where
  phoneNumber := phoneNumber
  deviceID := keys.deviceID
  registrationID := keys.registrationID
  identityKeyB64 := keys.longTerm.identityKeyB64
  signedPreKeyID := keys.longTerm.signedPreKeyID
  signedPreKeyPublicB64 := keys.longTerm.signedPreKeyPublicB64
  signedPreKeySignatureB64 := keys.longTerm.signedPreKeySignatureB64
  kyberPreKeyID := keys.longTerm.kyberPreKeyID
  kyberPreKeyPublicB64 := keys.longTerm.kyberPreKeyPublicB64
  kyberPreKeySignatureB64 := keys.longTerm.kyberPreKeySignatureB64
  oneTimePreKeys := keys.oneTimePreKeys

/-- The client, its provider and Discovery.  `keysFor`, `ours`, `drawn` are
histories: the id Discovery gave to the keys now held, all ids given to this
device, and all ids drawn. -/
structure Device where
  userId : Option String := none
  pendingUserId : Option String := none
  /-- whose tokens the Discovery client has -/
  token : Option String := none
  keys : Option Registration := none
  lastOnboarded : Option String := none
  service : Service
  now : Int
  keysFor : Option String := none
  ours : List String := []
  drawn : List String := []

/-- A request to Discovery. -/
def Device.send (d : Device) (r : Request) (call : Sent) : Device :=
  if call.net = .unsent then d
  else { d with service := d.service.handle call.wrote r, drawn := draws r ++ d.drawn }

/-- Keys are minted in place of those held. -/
def Device.generateRegistration (d : Device) (keys : Registration) : Device :=
  { d with keys := some keys, keysFor := none }

/-- Discovery has given the keys an id. -/
def Device.given (d : Device) (userID : String) (accepted : Bool) : Device :=
  if accepted then { d with keysFor := some userID, ours := userID :: d.ours } else d

/-- `discovery.register`, for keys that have just been minted; `userID` and `otp`
are what Discovery draws. -/
def Device.register (d : Device) (keys : Registration) (phoneNumber userID otp : String)
    (call : Sent) : Device × Option String :=
  let req := keys.request phoneNumber
  let accepted := (d.service.store.register req userID otp d.now).result.isSome
  (((d.generateRegistration keys).send (.register req userID otp d.now) call).given userID
      (call.net ≠ .unsent && accepted),
    if call.net = .replied && accepted then some userID else none)

/-- `discovery.submitOtp`, and whether it resolves. -/
def Device.submitOtp (d : Device) (userId code : String) (call : Sent) : Device × Bool :=
  let verified := (d.service.store.verify userId code d.now).result.isSome
  let sent := d.send (.verify userId code d.now) call
  if call.net = .replied && verified then ({ sent with token := some userId }, true)
  else (sent, false)

def Device.onboarded (d : Device) (userId : String) : Device :=
  { d with userId := some userId, lastOnboarded := some userId }

/-- `requestOtp`, and whether it resolves. -/
def Device.requestOtp (d : Device) (keys : Registration) (phoneNumber userID otp : String)
    (call : Sent) : Device × Bool :=
  match d.register keys phoneNumber userID otp call with
  | (d, some userId) => ({ d with pendingUserId := some userId }, true)
  | (d, none) => (d, false)

/-- `confirmOtp`; `connected` is whether the relay opens. -/
def Device.confirmOtp (d : Device) (code : String) (call : Sent) (connected : Bool) :
    Device × Bool :=
  match d.pendingUserId with
  | none => (d, false)
  | some userId =>
    match d.submitOtp userId code call with
    | (d, true) => ({ d.onboarded userId with pendingUserId := none }, connected)
    | (d, false) => (d, false)

/-- `onboard`; `devOtp` is whether Discovery echoes the code. -/
def Device.onboard (d : Device) (keys : Registration) (phoneNumber userID otp : String)
    (devOtp : Bool) (call call' : Sent) (connected : Bool) : Device × Bool :=
  match d.register keys phoneNumber userID otp call with
  | (d, none) => (d, false)
  | (d, some userId) =>
    if devOtp then
      match d.submitOtp userId otp call' with
      | (d, true) => (d.onboarded userId, connected)
      | (d, false) => (d, false)
    else (d, false)

/-- `linkWithCode`; without a token the code is refused before keys are minted. -/
def Device.linkWithCode (d : Device) (token : Option String) (keys : Registration)
    (userID : String) (call : Sent) (connected : Bool) : Device × Bool :=
  match token with
  | none => (d, false)
  | some token =>
    let req := keys.request ""
    let accepted := (d.service.store.linkDevice token req userID d.now).result.isSome
    let sent := ((d.generateRegistration keys).send (.linkDevice token req userID d.now) call).given
      userID (call.net ≠ .unsent && accepted)
    if call.net = .replied && accepted then
      ({ sent.onboarded userID with token := some userID }, connected)
    else (sent, false)

/-- `resume`, with the tokens of that identity. -/
def Device.resume (d : Device) (userId : String) : Device :=
  { d with userId := some userId, token := some userId }

/-- `replenishOneTimePreKeys`. -/
def Registration.replenish (keys : Registration) (more : List OneTimePreKey) : Registration :=
  { keys with oneTimePreKeys := keys.oneTimePreKeys ++ more }

/-- `maintainPreKeys`, when it finds the pool low. -/
def Device.maintainPreKeys (d : Device) (keys : Registration) (token : String)
    (more : List OneTimePreKey) (call : Sent) : Device :=
  { d with keys := some (keys.replenish more) }.send (.addOneTime token more) call

inductive Action where
  | requestOtp (keys : Registration) (phoneNumber userID otp : String) (call : Sent)
  | confirmOtp (code : String) (call : Sent) (connected : Bool)
  | onboard (keys : Registration) (phoneNumber userID otp : String) (devOtp : Bool)
      (call call' : Sent) (connected : Bool)
  | linkWithCode (token : Option String) (keys : Registration) (userID : String) (call : Sent)
      (connected : Bool)
  | resume
  | maintainPreKeys (more : List OneTimePreKey) (call : Sent)
  | relaunch
  | tick (elapsed : Nat)
  | serve (r : Request) (wrote : Bool)
  | restart (freshSalt : List UInt8) (readable : Bool)

/-- The clock reading in a request. -/
def clock : Request → Option Int
  | .register _ _ _ now => some now
  | .verify _ _ now => some now
  | .createLinkToken _ _ now => some now
  | .linkDevice _ _ _ now => some now
  | .allowIntersect _ _ now => some now
  | _ => none

/-- The account a request uploads to. -/
def uploads : Request → Option String
  | .addOneTime userID _ => some userID
  | _ => none

/-- Somebody else may send the request. -/
def Device.admits (d : Device) (r : Request) : Bool :=
  (draws r).all (· ∉ d.drawn) && (clock r).all (· = d.now) && (uploads r).all (· ∉ d.ours)

def Device.step (d : Device) : Action → Option Device
  | .requestOtp keys phoneNumber userID otp call =>
    if userID ∈ d.drawn then none else some (d.requestOtp keys phoneNumber userID otp call).1
  | .confirmOtp code call connected => some (d.confirmOtp code call connected).1
  | .onboard keys phoneNumber userID otp devOtp call call' connected =>
    if userID ∈ d.drawn then none
    else some (d.onboard keys phoneNumber userID otp devOtp call call' connected).1
  | .linkWithCode token keys userID call connected =>
    if userID ∈ d.drawn then none else some (d.linkWithCode token keys userID call connected).1
  | .resume => d.lastOnboarded.map d.resume
  | .maintainPreKeys more call =>
    match d.keys, d.token with
    | some keys, some token => some (d.maintainPreKeys keys token more call)
    | _, _ => none
  | .relaunch => some { d with userId := none, pendingUserId := none, token := none }
  | .tick elapsed => some { d with now := d.now + elapsed }
  | .serve r wrote =>
    if d.admits r then
      some { d with service := d.service.handle wrote r, drawn := draws r ++ d.drawn }
    else none
  | .restart freshSalt readable =>
    (d.service.step (.restart freshSalt readable)).map fun service => { d with service := service }

/-- A fresh device, and Discovery over a fresh file. -/
def device : Machine Device Action where
  start d := ∃ path salt now, d = { service := started path salt, now := now }
  step := Device.step

/-! ## What is claimed of a state -/

/-- The code for a user id can still be submitted. -/
def confirmable (service : Service) (now : Int) (userID : String) : Bool :=
  (service.store.pending.lookup userID).any (fun p => ¬ p.expiresAt < now) &&
    (service.store.accounts.lookup userID).isSome

/-- The pending user id, while it can be confirmed. -/
def Device.awaited (d : Device) (service : Service) (now : Int) : Option String :=
  d.pendingUserId.filter (confirmable service now)

/-- The user id that the client would use next. -/
def Device.nextUserId (d : Device) : Option String :=
  (d.awaited d.service d.now).or d.userId

/-- The provider has the private halves of what Discovery stores. -/
structure Holds (keys : Registration) (acct : Account) : Prop where
  longTerm : accountKeys acct = keys.longTerm
  oneTime : ∀ otk ∈ acct.oneTime, otk ∈ keys.oneTimePreKeys

/-- The keys held are those published for the next user id. -/
def InStep (d : Device) : Prop :=
  ∀ userId, d.nextUserId = some userId → ∀ acct, d.service.store.accounts.lookup userId = some acct →
    ∃ keys, d.keys = some keys ∧ Holds keys acct

/-- The call is one that mints keys, and is rejected. -/
def Device.rejects (d : Device) : Action → Bool
  | .requestOtp keys phoneNumber userID otp call =>
    ! (d.requestOtp keys phoneNumber userID otp call).2
  | .onboard keys phoneNumber userID otp devOtp call call' connected =>
    ! (d.onboard keys phoneNumber userID otp devOtp call call' connected).2
  | .linkWithCode token keys userID call connected =>
    ! (d.linkWithCode token keys userID call connected).2
  | _ => false

/-! ## When it holds -/

/-- A registration that waits for its code goes on waiting, or there is no other
user id to fall back on. -/
def Outlasts (d : Device) (service : Service) (now : Int) : Prop :=
  (d.awaited d.service d.now).isSome → d.userId = none ∨ (d.awaited service now).isSome

/-- Discovery registers the keys, and its answer comes back. -/
def Device.registers (d : Device) (keys : Registration) (phoneNumber userID otp : String)
    (call : Sent) : Bool :=
  call.net = .replied &&
    (d.service.store.register (keys.request phoneNumber) userID otp d.now).result.isSome

/-- The code is right, and Discovery's answer comes back. -/
def Device.confirms (d : Device) (code : String) (call : Sent) : Bool :=
  d.pendingUserId.any fun userId =>
    call.net = .replied && (d.service.store.verify userId code d.now).result.isSome

/-- Discovery links the device, and its answer comes back. -/
def Device.links (d : Device) (token : String) (keys : Registration) (userID : String)
    (call : Sent) : Bool :=
  call.net = .replied &&
    (d.service.store.linkDevice token (keys.request "") userID d.now).result.isSome

/-- Submitting the code does not use up the registration: it does not get
through, or is wrong and not the last guess. -/
def Device.retries (d : Device) (code : String) (call : Sent) : Bool :=
  call.net = .unsent || d.pendingUserId.any fun userId =>
    (d.service.store.pending.lookup userId).any fun p =>
      p.code ≠ code && decide (p.attempts + 1 < maxOTPAttempts)

/-- While keys are held, each call that mints others goes through to its end;
none of another account is made while a registration waits for its code; no
registration stops waiting, but by its confirmation, while another user id is
set; and only the identity of the keys held is resumed. -/
def Sparing (d : Device) : Action → Prop
  | .requestOtp keys phoneNumber userID otp call =>
    d.keys = none ∨ d.registers keys phoneNumber userID otp call = true
  | .confirmOtp code call _ =>
    d.confirms code call = true ∨ d.awaited d.service d.now = none ∨ d.userId = none ∨
      d.retries code call = true
  | .onboard keys phoneNumber userID otp devOtp call call' connected =>
    d.keys = none ∨ d.awaited d.service d.now = none ∧
      d.registers keys phoneNumber userID otp call = true ∧ devOtp = true ∧
        call'.net = .replied ∧ connected = true
  | .linkWithCode token keys userID call connected =>
    d.keys = none ∨ ∀ t ∈ token, d.awaited d.service d.now = none ∧
      d.links t keys userID call = true ∧ connected = true
  | .resume => (d.awaited d.service d.now).isSome ∨ d.keysFor = d.lastOnboarded
  | .maintainPreKeys .. => True
  | .relaunch => True
  | .tick elapsed => Outlasts d d.service (d.now + elapsed)
  | .serve r wrote => Outlasts d (d.service.handle wrote r) d.now
  | .restart freshSalt readable =>
    ∀ service ∈ d.service.step (.restart freshSalt readable), Outlasts d service d.now

/-- The keys held before are held still. -/
def Intact (d d' : Device) : Prop :=
  ∀ keys, d.keys = some keys → d'.keys = some keys

instance (d : Device) (service : Service) (now : Int) : Decidable (Outlasts d service now) := by
  unfold Outlasts
  infer_instance

instance (d : Device) (a : Action) : Decidable (Sparing d a) := by
  unfold Sparing
  split <;> infer_instance

/-! ## What a code can still do -/

variable {s : Service} {d d' d'' : Device} {r : Request} {call : Sent} {u : String} {now : Int}
variable {keys : Registration} {entry : Entry}

/-- Waiting for a code means that the right one would be accepted. -/
theorem confirmable_iff :
    confirmable s now u = true ↔ ∃ code, (s.store.verify u code now).result.isSome := by
  unfold confirmable
  rw [Bool.and_eq_true, Option.any_eq_true]
  constructor
  · rintro ⟨⟨p, pending, inTime⟩, record⟩
    obtain ⟨acct, found⟩ := Option.isSome_iff_exists.mp record
    refine ⟨p.code, ?_⟩
    simp [Store.verify, pending, of_decide_eq_true inTime, found]
  · rintro ⟨code, verified⟩
    unfold Store.verify at verified
    split at verified
    · cases verified
    · next p pending =>
      split at verified
      · cases verified
      · next inTime =>
        split at verified
        · split at verified <;> cases verified
        · split at verified
          · cases verified
          · next acct found => exact ⟨⟨p, pending, decide_eq_true inTime⟩, by rw [found]; rfl⟩

theorem confirmable_of_handle {wrote : Bool} (other : u ∉ draws r)
    (waits : confirmable (s.handle wrote r) now u = true) : confirmable s now u = true := by
  unfold confirmable at waits ⊢
  rw [Bool.and_eq_true, Option.any_eq_true] at waits ⊢
  obtain ⟨⟨p, pending, inTime⟩, record⟩ := waits
  refine ⟨?_, ?_⟩
  · rcases (handle_credentials s r wrote).pending u p pending with ⟨q, before, same⟩ | new
    · exact ⟨q, before, by rwa [same]⟩
    · exact absurd new other
  · obtain ⟨acct, found⟩ := Option.isSome_iff_exists.mp record
    rcases accounts_of_step rfl found with ⟨b, before, -⟩ | new
    · rw [before]
      rfl
    · exact absurd new other

/-- A registration can be confirmed with its code. -/
theorem verify_of_register {req : RegisterRequest} {otp : String} {wrote : Bool}
    (accepted : (s.store.register req u otp now).result.isSome = true) :
    ((s.handle wrote (.register req u otp now)).store.verify u otp now).result.isSome = true := by
  have inTime : ¬ now + otpTTL < now := by
    unfold otpTTL second
    omega
  unfold Store.register at accepted
  simp only at accepted
  split at accepted
  · cases accepted
  · next open_ =>
    simp [Store.verify, Service.handle, Service.commit, Store.register, open_, inTime]

/-- A wrong guess that is not the last one leaves the registration waiting. -/
theorem confirmable_of_wrong {p : PendingOTP} {code : String} {wrote : Bool}
    (pending : s.store.pending.lookup u = some p) (wrong : p.code ≠ code)
    (guesses : p.attempts + 1 < maxOTPAttempts) (waits : confirmable s now u = true) :
    confirmable (s.handle wrote (.verify u code now)) now u = true := by
  unfold confirmable at waits ⊢
  rw [pending, Bool.and_eq_true, Option.any_some] at waits
  obtain ⟨inTime, record⟩ := waits
  have lasts : ¬ p.expiresAt < now := of_decide_eq_true inTime
  have more : ¬ maxOTPAttempts ≤ p.attempts + 1 := by omega
  simp only [Service.handle, Service.commit, Store.verify, pending, if_neg lasts, if_pos wrong,
    if_neg more, AList.lookup_insert, Option.any_some, inTime, record, Bool.and_self]

/-! ## What is recorded -/

/-- What the entry publishes or supplies is held. -/
def Covers (keys : Registration) (entry : Entry) : Prop :=
  (∀ longTerm, publishedBy entry = some longTerm → longTerm = keys.longTerm) ∧
    ∀ otk ∈ suppliedBy entry, otk ∈ keys.oneTimePreKeys

/-- All that was published under the id of the keys held is held. -/
structure Recorded (d : Device) : Prop where
  kept : Kept Published d.service
  logged : ∀ entry ∈ d.service.log, subject entry ∈ d.drawn
  covered : ∀ u, d.keysFor = some u → u ∈ d.ours ∧ ∃ keys, d.keys = some keys ∧
    ∀ entry ∈ d.service.log, subject entry = u → Covers keys entry
  ours : ∀ u ∈ d.ours, u ∈ d.drawn
  pending : ∀ u, d.pendingUserId = some u → u ∈ d.drawn

theorem Recorded.frame (recorded : Recorded d) (service : d'.service = d.service)
    (keys : d'.keys = d.keys) (keysFor : d'.keysFor = d.keysFor) (ours : d'.ours = d.ours)
    (drawn : d'.drawn = d.drawn) (pending : ∀ u, d'.pendingUserId = some u → u ∈ d.drawn) :
    Recorded d' := by
  refine ⟨?_, ?_, ?_, ?_, ?_⟩
  · rw [service]
    exact recorded.kept
  · rw [service, drawn]
    exact recorded.logged
  · rw [keysFor, ours, keys, service]
    exact recorded.covered
  · rw [ours, drawn]
    exact recorded.ours
  · rw [drawn]
    exact pending

theorem covers_of_said (said : Says r entry) (other : subject entry ∉ draws r)
    (supplied : ∀ more, r = .addOneTime (subject entry) more → ∀ otk ∈ more,
      otk ∈ keys.oneTimePreKeys) : Covers keys entry := by
  cases r with
  | register =>
    cases said
    exact absurd List.mem_cons_self other
  | linkDevice =>
    cases said
    exact absurd List.mem_cons_self other
  | addOneTime userID more =>
    cases said
    refine ⟨?_, supplied more rfl⟩
    intro longTerm published
    cases published
  | _ =>
    obtain ⟨nothing, none_⟩ := said
    refine ⟨?_, ?_⟩
    · intro longTerm published
      rw [nothing] at published
      cases published
    · intro otk inside
      rw [none_] at inside
      cases inside

theorem logged_of_handle (recorded : Recorded d) (wrote : Bool)
    (member : entry ∈ (d.service.handle wrote r).log) : subject entry ∈ draws r ++ d.drawn := by
  rcases log_of_step rfl member with before | ⟨-, new | record⟩
  · exact List.mem_append_right _ (recorded.logged entry before)
  · exact List.mem_append_left _ new
  · obtain ⟨acct, found⟩ := Option.isSome_iff_exists.mp record
    obtain ⟨keyed, published⟩ := recorded.kept.memory _ acct found
    obtain ⟨entry', member', own, -⟩ := published.longTerm
    have drawn := recorded.logged entry' member'
    rw [own, keyed] at drawn
    exact List.mem_append_right _ drawn

/-- Anybody's request keeps the record, if it draws new ids and uploads nothing
that is not held. -/
theorem Recorded.handle (recorded : Recorded d) (fresh : ∀ u ∈ draws r, u ∉ d.drawn)
    (supplied : ∀ u more, r = .addOneTime u more → d.keysFor = some u → ∀ keys, d.keys = some keys →
      ∀ otk ∈ more, otk ∈ keys.oneTimePreKeys) (wrote : Bool) :
    Recorded { d with service := d.service.handle wrote r, drawn := draws r ++ d.drawn } := by
  refine ⟨?_, ?_, ?_, ?_, ?_⟩
  · exact step_published recorded.kept (rfl : d.service.step (.request r wrote) = some _)
  · exact fun entry member => logged_of_handle recorded wrote member
  · intro u given
    obtain ⟨own, keys, held, covers⟩ := recorded.covered u given
    refine ⟨own, keys, held, ?_⟩
    intro entry member about
    rcases log_of_step rfl member with before | ⟨said, -⟩
    · exact covers entry before about
    · refine covers_of_said said ?_ ?_
      · rw [about]
        exact fun new => fresh u new (recorded.ours u own)
      · intro more uploaded
        rw [about] at uploaded
        exact supplied u more uploaded given keys held
  · exact fun u own => List.mem_append_right _ (recorded.ours u own)
  · exact fun u waits => List.mem_append_right _ (recorded.pending u waits)

theorem Recorded.send (recorded : Recorded d) (fresh : ∀ u ∈ draws r, u ∉ d.drawn)
    (supplied : ∀ u more, r = .addOneTime u more → d.keysFor = some u → ∀ keys, d.keys = some keys →
      ∀ otk ∈ more, otk ∈ keys.oneTimePreKeys) (call : Sent) : Recorded (d.send r call) := by
  unfold Device.send
  split
  · exact recorded
  · exact recorded.handle fresh supplied call.wrote

theorem Recorded.generateRegistration (recorded : Recorded d) (keys : Registration) :
    Recorded (d.generateRegistration keys) := by
  refine ⟨recorded.kept, recorded.logged, ?_, recorded.ours, recorded.pending⟩
  intro u given
  cases given

/-- Keys that Discovery gives an id to are recorded under it. -/
theorem Recorded.mint (recorded : Recorded d) {userID : String} (draw : draws r = [userID])
    (new : userID ∉ d.drawn) (told : ∀ entry, Says r entry → Covers keys entry)
    (silent : uploads r = none) (call : Sent) (accepted : Bool) :
    Recorded (((d.generateRegistration keys).send r call).given userID
      (call.net ≠ .unsent && accepted)) := by
  have fresh : ∀ u ∈ draws r, u ∉ d.drawn := by
    rw [draw]
    intro u member
    rwa [List.mem_singleton.mp member]
  have sent : Recorded ((d.generateRegistration keys).send r call) := by
    refine (recorded.generateRegistration keys).send fresh ?_ call
    rintro u more rfl
    cases silent
  unfold Device.given
  split
  · next given =>
    have through : call.net ≠ .unsent := of_decide_eq_true (Bool.and_eq_true_iff.mp given).1
    simp only [Device.send, if_neg through] at sent ⊢
    refine ⟨sent.kept, sent.logged, ?_, ?_, sent.pending⟩
    · intro u own
      cases own
      refine ⟨List.mem_cons_self, keys, rfl, ?_⟩
      intro entry member about
      rcases log_of_step rfl member with before | ⟨said, -⟩
      · exact absurd (about ▸ recorded.logged entry before) new
      · exact told entry said
    · intro u own
      rcases List.mem_cons.mp own with rfl | before
      · rw [draw]
        exact List.mem_append_left _ List.mem_cons_self
      · exact List.mem_append_right _ (recorded.ours u before)
  · exact sent

theorem Recorded.register (recorded : Recorded d) {userID : String} (new : userID ∉ d.drawn)
    (keys : Registration) (phoneNumber otp : String) (call : Sent) :
    Recorded (d.register keys phoneNumber userID otp call).1 := by
  unfold Device.register
  refine recorded.mint rfl new ?_ rfl call _
  rintro entry rfl
  refine ⟨?_, fun _ inside => inside⟩
  rintro longTerm ⟨⟩
  rfl

theorem Recorded.submitOtp (recorded : Recorded d) (userId code : String) (call : Sent) :
    Recorded (d.submitOtp userId code call).1 := by
  have sent : Recorded (d.send (.verify userId code d.now) call) := by
    refine recorded.send ?_ ?_ call
    · intro u new
      cases new
    · intro u more same
      cases same
  unfold Device.submitOtp
  simp only
  split
  · exact sent.frame rfl rfl rfl rfl rfl sent.pending
  · exact sent

/-- What one call leaves of the code that another waits for. -/
structure Fades (d d' : Device) : Prop where
  userId : d'.userId = d.userId
  pendingUserId : d'.pendingUserId = d.pendingUserId
  drawn : ∀ u ∈ d.drawn, u ∈ d'.drawn
  confirmable : ∀ u ∈ d.drawn, confirmable d'.service d'.now u = true →
    confirmable d.service d.now u = true

theorem Fades.trans (fades : Fades d d') (fades' : Fades d' d'') : Fades d d'' where
  userId := fades'.userId.trans fades.userId
  pendingUserId := fades'.pendingUserId.trans fades.pendingUserId
  drawn := fun u drawn => fades'.drawn u (fades.drawn u drawn)
  confirmable := fun u drawn waits =>
    fades.confirmable u drawn (fades'.confirmable u (fades.drawn u drawn) waits)

theorem fades_same (userId : d'.userId = d.userId) (pendingUserId : d'.pendingUserId = d.pendingUserId)
    (drawn : d'.drawn = d.drawn) (service : d'.service = d.service) (now : d'.now = d.now) :
    Fades d d' := by
  refine ⟨userId, pendingUserId, ?_, ?_⟩
  · rw [drawn]
    exact fun _ inside => inside
  · rw [service, now]
    exact fun _ _ waits => waits

theorem fades_send (fresh : ∀ u ∈ draws r, u ∉ d.drawn) (call : Sent) : Fades d (d.send r call) := by
  unfold Device.send
  split
  · exact fades_same rfl rfl rfl rfl rfl
  · refine ⟨rfl, rfl, fun u drawn => List.mem_append_right _ drawn, ?_⟩
    intro u drawn waits
    exact confirmable_of_handle (fun new => fresh u new drawn) waits

theorem fades_given (userID : String) (accepted : Bool) : Fades d (d.given userID accepted) := by
  unfold Device.given
  split <;> exact fades_same rfl rfl rfl rfl rfl

theorem fades_register {userID : String} (new : userID ∉ d.drawn) (keys : Registration)
    (phoneNumber otp : String) (call : Sent) :
    Fades d (d.register keys phoneNumber userID otp call).1 := by
  have minted : Fades d (d.generateRegistration keys) := fades_same rfl rfl rfl rfl rfl
  refine minted.trans (Fades.trans (fades_send ?_ call) (fades_given userID _))
  intro u drawn
  rwa [List.mem_singleton.mp drawn]

theorem fades_submitOtp (userId code : String) (call : Sent) :
    Fades d (d.submitOtp userId code call).1 := by
  have sent : Fades d (d.send (.verify userId code d.now) call) := by
    refine fades_send ?_ call
    intro u new
    cases new
  unfold Device.submitOtp
  simp only
  split
  · exact sent.trans (fades_same rfl rfl rfl rfl rfl)
  · exact sent

/-! ## Which user id is next -/

/-- The keys held are the ones registered under the next user id. -/
def Matched (d : Device) : Prop :=
  ∀ u, d.nextUserId = some u → d.keysFor = some u

theorem awaited_of_fades (recorded : Recorded d) (fades : Fades d d')
    (waits : d'.awaited d'.service d'.now = some u) : d.awaited d.service d.now = some u := by
  unfold Device.awaited at waits ⊢
  rw [Option.filter_eq_some_iff] at waits ⊢
  obtain ⟨own, waits⟩ := waits
  rw [fades.pendingUserId] at own
  exact ⟨own, fades.confirmable u (recorded.pending u own) waits⟩

theorem awaited_none_of_fades (recorded : Recorded d) (fades : Fades d d')
    (idle : d.awaited d.service d.now = none) : d'.awaited d'.service d'.now = none := by
  refine Option.eq_none_iff_forall_ne_some.mpr ?_
  intro u waits
  rw [awaited_of_fades recorded fades waits] at idle
  cases idle

theorem nextUserId_eq_none : d.nextUserId = none ↔
    d.awaited d.service d.now = none ∧ d.userId = none := by
  unfold Device.nextUserId
  exact Option.or_eq_none_iff

theorem next_none_of_keys (recorded : Recorded d) (matched : Matched d) (nothing : d.keys = none) :
    d.nextUserId = none := by
  refine Option.eq_none_iff_forall_ne_some.mpr ?_
  intro u next
  obtain ⟨-, keys, held, -⟩ := recorded.covered u (matched u next)
  rw [nothing] at held
  cases held

/-- Without a next user id before, there is none after a call that gives none. -/
theorem matched_of_idle (recorded : Recorded d) (fades : Fades d d') (idle : d.nextUserId = none) :
    Matched d' := by
  obtain ⟨awaited, userId⟩ := nextUserId_eq_none.mp idle
  have after : d'.nextUserId = none := nextUserId_eq_none.mpr
    ⟨awaited_none_of_fades recorded fades awaited, fades.userId.trans userId⟩
  intro u next
  rw [after] at next
  cases next

/-- A registration that goes on waiting keeps its keys; one that does not leaves
nothing behind. -/
theorem matched_of_outlasts (recorded : Recorded d) (matched : Matched d) (fades : Fades d d')
    (same : d'.keysFor = d.keysFor) (outlasts : Outlasts d d'.service d'.now) : Matched d' := by
  intro u next
  rw [same]
  have after : d.awaited d'.service d'.now = d'.awaited d'.service d'.now := by
    unfold Device.awaited
    rw [fades.pendingUserId]
  unfold Device.nextUserId at next
  cases waits : d'.awaited d'.service d'.now with
  | some p =>
    rw [waits, Option.some_or] at next
    cases next
    apply matched
    rw [Device.nextUserId, awaited_of_fades recorded fades waits, Option.some_or]
  | none =>
    rw [waits, Option.none_or, fades.userId] at next
    cases before : d.awaited d.service d.now with
    | none =>
      apply matched
      rw [Device.nextUserId, before, Option.none_or, next]
    | some p =>
      rcases outlasts (by rw [before]; rfl) with alone | still
      · rw [alone] at next
        cases next
      · rw [after, waits] at still
        cases still

/-- An id that was given to the keys held is used next, if no code is awaited. -/
theorem matched_onboarded (idle : d.awaited d.service d.now = none) (userId : d.userId = some u)
    (given : d.keysFor = some u) : Matched d := by
  intro v next
  rw [Device.nextUserId, idle, Option.none_or, userId] at next
  rw [given, ← next]

/-! ## The calls -/

section Calls

variable {phoneNumber userID otp code : String}

/-- Discovery has registered the keys, and they can be confirmed. -/
theorem register_replied (reply : (d.register keys phoneNumber userID otp call).2 = some u) :
    u = userID ∧ (d.register keys phoneNumber userID otp call).1.keysFor = some userID ∧
      userID ∈ (d.register keys phoneNumber userID otp call).1.drawn ∧
      ((d.register keys phoneNumber userID otp call).1.service.store.verify userID otp
        (d.register keys phoneNumber userID otp call).1.now).result.isSome = true := by
  simp only [Device.register, Option.ite_none_right_eq_some, Option.some.injEq, Bool.and_eq_true,
    decide_eq_true_eq] at reply
  obtain ⟨⟨replied, accepted⟩, rfl⟩ := reply
  simp only [Device.register, Device.given, Device.send, Device.generateRegistration, replied,
    accepted, reduceCtorEq, if_false, ne_eq, not_false_eq_true, decide_true, Bool.and_self, if_true,
    true_and]
  exact ⟨List.mem_cons_self, verify_of_register accepted⟩

theorem register_reply : (d.register keys phoneNumber userID otp call).2 =
    if d.registers keys phoneNumber userID otp call then some userID else none := rfl

theorem requestOtp_resolved : (d.requestOtp keys phoneNumber userID otp call).2 =
    d.registers keys phoneNumber userID otp call := by
  have reply : (d.register keys phoneNumber userID otp call).2 = _ := register_reply
  unfold Device.requestOtp
  split
  · next d' u same =>
    rw [same] at reply
    split at reply
    · next registered => exact registered.symm
    · cases reply
  · next d' same =>
    rw [same] at reply
    split at reply
    · cases reply
    · next refused => exact (Bool.eq_false_iff.mpr refused).symm

theorem Recorded.requestOtp (recorded : Recorded d) (new : userID ∉ d.drawn) :
    Recorded (d.requestOtp keys phoneNumber userID otp call).1 := by
  have registered := recorded.register new keys phoneNumber otp call
  unfold Device.requestOtp
  split
  · next d' u same =>
    have reply : (d.register keys phoneNumber userID otp call).2 = some u := by rw [same]
    obtain ⟨rfl, -, drawn, -⟩ := register_replied reply
    rw [same] at registered drawn
    refine registered.frame rfl rfl rfl rfl rfl ?_
    rintro v ⟨⟩
    exact drawn
  · next d' same =>
    rw [same] at registered
    exact registered

theorem Matched.requestOtp (recorded : Recorded d) (matched : Matched d) (new : userID ∉ d.drawn)
    (spares : d.keys = none ∨ d.registers keys phoneNumber userID otp call = true) :
    Matched (d.requestOtp keys phoneNumber userID otp call).1 := by
  have fades := fades_register new keys phoneNumber otp call
  rw [← requestOtp_resolved] at spares
  unfold Device.requestOtp at spares ⊢
  split
  · next d' u same =>
    have reply : (d.register keys phoneNumber userID otp call).2 = some u := by rw [same]
    obtain ⟨rfl, given, -, verifies⟩ := register_replied reply
    rw [same] at given verifies
    intro v next
    have awaited : (some u).filter (confirmable d'.service d'.now) = some u :=
      Option.filter_eq_some_iff.mpr ⟨rfl, confirmable_iff.mpr ⟨otp, verifies⟩⟩
    simp only [Device.nextUserId, Device.awaited, awaited, Option.some_or, Option.some.injEq] at next
    rw [← next]
    exact given
  · next d' same =>
    rw [same] at spares fades
    rcases spares with nothing | resolved
    · exact matched_of_idle recorded fades (next_none_of_keys recorded matched nothing)
    · cases resolved

theorem Recorded.confirmOtp (recorded : Recorded d) (connected : Bool) :
    Recorded (d.confirmOtp code call connected).1 := by
  unfold Device.confirmOtp
  split
  · exact recorded
  · next userId waits =>
    have submitted := recorded.submitOtp userId code call
    split
    · next d' same =>
      rw [same] at submitted
      refine submitted.frame rfl rfl rfl rfl rfl ?_
      intro v nothing
      cases nothing
    · next d' same =>
      rw [same] at submitted
      exact submitted

theorem submitOtp_same (d : Device) (userId code : String) (call : Sent) :
    (d.submitOtp userId code call).1.keysFor = d.keysFor ∧
      (d.submitOtp userId code call).1.now = d.now ∧
      (d.submitOtp userId code call).1.service =
        (d.send (.verify userId code d.now) call).service := by
  unfold Device.submitOtp Device.send
  simp only
  split <;> split <;> exact ⟨rfl, rfl, rfl⟩

theorem submitOtp_resolved (d : Device) (userId code : String) (call : Sent) :
    (d.submitOtp userId code call).2 =
      (call.net = .replied && (d.service.store.verify userId code d.now).result.isSome) := by
  unfold Device.submitOtp
  simp only
  split
  · next verified => exact verified.symm
  · next refused => exact (Bool.eq_false_iff.mpr refused).symm

/-- A guess that does not use up the registration leaves it waiting. -/
theorem outlasts_of_retries {userId : String} (own : d.pendingUserId = some userId)
    (retries : d.retries code call = true) :
    Outlasts d (d.send (.verify userId code d.now) call).service d.now := by
  intro waits
  right
  obtain ⟨u, awaited⟩ := Option.isSome_iff_exists.mp waits
  obtain ⟨own', before⟩ := Option.filter_eq_some_iff.mp awaited
  cases own.symm.trans own'
  unfold Device.send
  split
  · exact waits
  · next sent =>
    simp only [Device.retries, own, Option.any_some, Bool.or_eq_true, decide_eq_true_eq, sent,
      false_or, Option.any_eq_true, Bool.and_eq_true] at retries
    obtain ⟨p, pending, wrong, guesses⟩ := retries
    exact Option.isSome_iff_exists.mpr ⟨userId, Option.filter_eq_some_iff.mpr
      ⟨own, confirmable_of_wrong pending wrong guesses before⟩⟩

theorem Matched.confirmOtp (recorded : Recorded d) (matched : Matched d) (connected : Bool)
    (spares : d.confirms code call = true ∨ d.awaited d.service d.now = none ∨ d.userId = none ∨
      d.retries code call = true) :
    Matched (d.confirmOtp code call connected).1 := by
  cases waits : d.pendingUserId with
  | none =>
    have same : d.confirmOtp code call connected = (d, false) := by
      unfold Device.confirmOtp
      rw [waits]
    rw [same]
    exact matched
  | some userId =>
    have fades := fades_submitOtp (d := d) userId code call
    obtain ⟨keysFor, now, service⟩ := submitOtp_same d userId code call
    have resolved := submitOtp_resolved d userId code call
    have outlasts (refused : d.confirms code call ≠ true) :
        Outlasts d (d.send (.verify userId code d.now) call).service d.now := by
      rcases spares with confirmed | idle | alone | retries
      · exact absurd confirmed refused
      · intro awaited
        rw [idle] at awaited
        cases awaited
      · exact fun _ => .inl alone
      · exact outlasts_of_retries waits retries
    simp only [Device.confirms, waits, Option.any_some, ← resolved] at outlasts
    simp only [Device.confirmOtp, waits]
    split
    · next d' same =>
      simp only [same] at keysFor resolved ⊢
      have right := confirmable_iff.mpr ⟨code, (Bool.and_eq_true_iff.mp resolved.symm).2⟩
      have next : d.nextUserId = some userId := by
        rw [Device.nextUserId, Device.awaited, waits,
          Option.filter_eq_some_iff.mpr ⟨rfl, right⟩, Option.some_or]
      exact matched_onboarded rfl rfl (keysFor.trans (matched userId next))
    · next d' same =>
      simp only [same] at fades keysFor now service outlasts
      refine matched_of_outlasts recorded matched fades keysFor ?_
      rw [now, service]
      exact outlasts Bool.false_ne_true

theorem onboard_resolved {call' : Sent} (registered : d.registers keys phoneNumber userID otp call)
    (replied : call'.net = .replied) :
    (d.onboard keys phoneNumber userID otp true call call' true).2 = true := by
  have reply : (d.register keys phoneNumber userID otp call).2 = some userID :=
    register_reply.trans (if_pos registered)
  obtain ⟨-, -, -, verifies⟩ := register_replied reply
  unfold Device.onboard
  split
  · next d' same =>
    rw [same] at reply
    cases reply
  · next d' u same =>
    rw [same] at reply verifies
    cases reply
    have resolved := submitOtp_resolved d' userID otp call'
    rw [replied, verifies] at resolved
    rw [if_pos rfl]
    split
    · rfl
    · next d'' same' =>
      rw [same'] at resolved
      cases resolved

theorem Recorded.onboard (recorded : Recorded d) (new : userID ∉ d.drawn) (devOtp : Bool)
    (call' : Sent) (connected : Bool) :
    Recorded (d.onboard keys phoneNumber userID otp devOtp call call' connected).1 := by
  have registered := recorded.register new keys phoneNumber otp call
  unfold Device.onboard
  split
  · next d' same =>
    rw [same] at registered
    exact registered
  · next d' u same =>
    rw [same] at registered
    split
    · have submitted := registered.submitOtp u otp call'
      split
      · next d'' same' =>
        rw [same'] at submitted
        exact submitted.frame rfl rfl rfl rfl rfl submitted.pending
      · next d'' same' =>
        rw [same'] at submitted
        exact submitted
    · exact registered

theorem Matched.onboard (recorded : Recorded d) (matched : Matched d) (new : userID ∉ d.drawn)
    (devOtp : Bool) (call' : Sent) (connected : Bool)
    (spares : d.keys = none ∨ d.awaited d.service d.now = none ∧
      (d.onboard keys phoneNumber userID otp devOtp call call' connected).2 = true) :
    Matched (d.onboard keys phoneNumber userID otp devOtp call call' connected).1 := by
  have idle : d.awaited d.service d.now = none := by
    rcases spares with nothing | ⟨idle, -⟩
    · exact (nextUserId_eq_none.mp (next_none_of_keys recorded matched nothing)).1
    · exact idle
  have rejected {d' : Device} (fades : Fades d d')
      (spares : d.keys = none ∨ d.awaited d.service d.now = none ∧ false = true) : Matched d' := by
    rcases spares with nothing | ⟨-, resolved⟩
    · exact matched_of_idle recorded fades (next_none_of_keys recorded matched nothing)
    · cases resolved
  have fades := fades_register new keys phoneNumber otp call
  have registered := recorded.register new keys phoneNumber otp call
  unfold Device.onboard at spares ⊢
  split
  · next d' same =>
    rw [same] at spares fades
    exact rejected fades spares
  · next d' u same =>
    have reply : (d.register keys phoneNumber userID otp call).2 = some u := by rw [same]
    obtain ⟨rfl, given, -, -⟩ := register_replied reply
    rw [same] at spares fades registered given
    simp only at spares
    split
    · next echoed =>
      rw [if_pos echoed] at spares
      have fades' := fades_submitOtp (d := d') u otp call'
      obtain ⟨keysFor, -, -⟩ := submitOtp_same d' u otp call'
      split
      · next d'' same' =>
        rw [same'] at fades' keysFor
        have after : d''.awaited d''.service d''.now = none :=
          awaited_none_of_fades registered fades' (awaited_none_of_fades recorded fades idle)
        exact matched_onboarded after rfl (keysFor.trans given)
      · next d'' same' =>
        rw [same'] at fades' spares
        exact rejected (fades.trans fades') spares
    · next silent =>
      rw [if_neg silent] at spares
      exact rejected fades spares

theorem linkWithCode_resolved {t : String} (linked : d.links t keys userID call) :
    (d.linkWithCode (some t) keys userID call true).2 = true := by
  have accepted : (call.net = .replied &&
    (d.service.store.linkDevice t (keys.request "") userID d.now).result.isSome) = true := linked
  simp only [Device.linkWithCode]
  rw [if_pos accepted]

theorem Recorded.linkWithCode (recorded : Recorded d) (new : userID ∉ d.drawn)
    (token : Option String) (connected : Bool) :
    Recorded (d.linkWithCode token keys userID call connected).1 := by
  unfold Device.linkWithCode
  split
  · exact recorded
  · next t =>
    have minted : Recorded (((d.generateRegistration keys).send
        (.linkDevice t (keys.request "") userID d.now) call).given userID (call.net ≠ .unsent &&
          (d.service.store.linkDevice t (keys.request "") userID d.now).result.isSome)) := by
      refine recorded.mint rfl new ?_ rfl call _
      rintro entry rfl
      refine ⟨?_, fun _ inside => inside⟩
      rintro longTerm ⟨⟩
      rfl
    simp only
    split
    · exact minted.frame rfl rfl rfl rfl rfl minted.pending
    · exact minted

theorem Matched.linkWithCode (recorded : Recorded d) (matched : Matched d) (new : userID ∉ d.drawn)
    (token : Option String) (connected : Bool)
    (spares : token = none ∨ d.keys = none ∨ d.awaited d.service d.now = none ∧
      (d.linkWithCode token keys userID call connected).2 = true) :
    Matched (d.linkWithCode token keys userID call connected).1 := by
  unfold Device.linkWithCode at spares ⊢
  split
  · exact matched
  · next t =>
    have idle : d.awaited d.service d.now = none := by
      rcases spares with unreadable | nothing | ⟨idle, -⟩
      · cases unreadable
      · exact (nextUserId_eq_none.mp (next_none_of_keys recorded matched nothing)).1
      · exact idle
    have fades (accepted : Bool) : Fades d (((d.generateRegistration keys).send
        (.linkDevice t (keys.request "") userID d.now) call).given userID accepted) := by
      have minted : Fades d (d.generateRegistration keys) := fades_same rfl rfl rfl rfl rfl
      refine minted.trans (Fades.trans (fades_send ?_ call) (fades_given userID accepted))
      intro u drawn
      rwa [List.mem_singleton.mp drawn]
    simp only at spares ⊢
    split
    · next accepted =>
      have after := awaited_none_of_fades recorded (fades (call.net ≠ .unsent &&
        (d.service.store.linkDevice t (keys.request "") userID d.now).result.isSome)) idle
      refine matched_onboarded after rfl ?_
      obtain ⟨replied, linked⟩ := Bool.and_eq_true_iff.mp accepted
      simp [Device.onboarded, Device.given, of_decide_eq_true replied, linked]
    · next refused =>
      rw [if_neg refused] at spares
      rcases spares with unreadable | nothing | ⟨-, resolved⟩
      · cases unreadable
      · exact matched_of_idle recorded (fades _) (next_none_of_keys recorded matched nothing)
      · cases resolved

end Calls

/-- A sparing call that mints keys in place of others is not rejected. -/
theorem rejects_of_sparing {a : Action} (spares : Sparing d a) (rejected : d.rejects a = true) :
    d.keys = none ∨ ∃ keys userID call connected, a = .linkWithCode none keys userID call connected := by
  cases a with
  | requestOtp keys phoneNumber userID otp call =>
    rcases spares with nothing | registered
    · exact .inl nothing
    · simp [Device.rejects, requestOtp_resolved, registered] at rejected
  | onboard keys phoneNumber userID otp devOtp call call' connected =>
    rcases spares with nothing | ⟨-, registered, rfl, replied, rfl⟩
    · exact .inl nothing
    · simp [Device.rejects, onboard_resolved registered replied] at rejected
  | linkWithCode token keys userID call connected =>
    rcases spares with nothing | through
    · exact .inl nothing
    · cases token with
      | none => exact .inr ⟨keys, userID, call, connected, rfl⟩
      | some t =>
        obtain ⟨-, linked, rfl⟩ := through t rfl
        simp [Device.rejects, linkWithCode_resolved linked] at rejected
  | _ => cases rejected

/-! ## Between the calls -/

theorem Matched.resume (matched : Matched d) (userId : String)
    (spares : (d.awaited d.service d.now).isSome ∨ d.keysFor = some userId) :
    Matched (d.resume userId) := by
  intro u next
  cases waits : d.awaited d.service d.now with
  | some p =>
    have same : (d.awaited d.service d.now).or (some userId) = some u := next
    rw [waits, Option.some_or] at same
    apply matched
    rw [Device.nextUserId, waits, Option.some_or, same]
  | none =>
    have same : (d.awaited d.service d.now).or (some userId) = some u := next
    rw [waits, Option.none_or] at same
    rcases spares with awaited | own
    · rw [waits] at awaited
      cases awaited
    · rw [← same]
      exact own

theorem confirmable_of_addOneTime (wrote : Bool) (token : String) (more : List OneTimePreKey)
    (waits : confirmable s now u = true) :
    confirmable (s.handle wrote (.addOneTime token more)) now u = true := by
  cases found : s.store.accounts.lookup token with
  | none =>
    simp only [Service.handle, Service.commit, Store.addOneTime, found]
    exact waits
  | some acct =>
    simp only [Service.handle, Service.commit, Store.addOneTime, found, confirmable,
      Bool.and_eq_true] at waits ⊢
    refine ⟨waits.1, ?_⟩
    rw [FinMap.lookup_insert_apply]
    split
    · rfl
    · exact waits.2

theorem Recorded.maintainPreKeys (recorded : Recorded d) (held : d.keys = some keys)
    (token : String) (more : List OneTimePreKey) (call : Sent) :
    Recorded (d.maintainPreKeys keys token more call) := by
  have replenished : Recorded { d with keys := some (keys.replenish more) } := by
    refine ⟨recorded.kept, recorded.logged, ?_, recorded.ours, recorded.pending⟩
    intro u given
    obtain ⟨own, keys', held', covers⟩ := recorded.covered u given
    cases held.symm.trans held'
    refine ⟨own, _, rfl, ?_⟩
    intro entry member about
    obtain ⟨longTerm, oneTime⟩ := covers entry member about
    exact ⟨longTerm, fun otk inside => List.mem_append_left _ (oneTime otk inside)⟩
  refine replenished.send ?_ ?_ call
  · intro u new
    cases new
  · rintro u more' ⟨⟩ - keys' ⟨⟩ otk inside
    exact List.mem_append_right _ inside

theorem Matched.maintainPreKeys (recorded : Recorded d) (matched : Matched d)
    (keys : Registration) (token : String) (more : List OneTimePreKey) (call : Sent) :
    Matched (d.maintainPreKeys keys token more call) := by
  have minted : Fades d { d with keys := some (keys.replenish more) } :=
    fades_same rfl rfl rfl rfl rfl
  have fades : Fades d (d.maintainPreKeys keys token more call) := by
    refine minted.trans (fades_send ?_ call)
    intro u new
    cases new
  refine matched_of_outlasts recorded matched fades ?_ ?_
  · unfold Device.maintainPreKeys Device.send
    split <;> rfl
  · intro waits
    obtain ⟨u, awaited⟩ := Option.isSome_iff_exists.mp waits
    obtain ⟨own, before⟩ := Option.filter_eq_some_iff.mp awaited
    refine .inr ?_
    unfold Device.maintainPreKeys Device.send
    split
    · exact waits
    · have after := confirmable_of_addOneTime call.wrote token more before
      exact Option.isSome_iff_exists.mpr ⟨u, Option.filter_eq_some_iff.mpr ⟨own, after⟩⟩

theorem fades_tick (elapsed : Nat) : Fades d { d with now := d.now + elapsed } := by
  refine ⟨rfl, rfl, fun _ drawn => drawn, ?_⟩
  intro u _ waits
  unfold confirmable at waits ⊢
  rw [Bool.and_eq_true, Option.any_eq_true] at waits ⊢
  obtain ⟨⟨p, pending, inTime⟩, record⟩ := waits
  refine ⟨⟨p, pending, decide_eq_true ?_⟩, record⟩
  have later : ¬ p.expiresAt < d.now + elapsed := of_decide_eq_true inTime
  omega

theorem fresh_of_admits (admitted : d.admits r = true) : ∀ u ∈ draws r, u ∉ d.drawn := by
  intro u new
  simp only [Device.admits, Bool.and_eq_true, List.all_eq_true, decide_eq_true_eq] at admitted
  exact admitted.1.1 u new

theorem Recorded.serve (recorded : Recorded d) (admitted : d.admits r = true) (wrote : Bool) :
    Recorded { d with service := d.service.handle wrote r, drawn := draws r ++ d.drawn } := by
  refine recorded.handle (fresh_of_admits admitted) ?_ wrote
  rintro u more rfl given
  have own := (recorded.covered u given).1
  simp [Device.admits, uploads, own] at admitted

theorem fades_serve (admitted : d.admits r = true) (wrote : Bool) :
    Fades d { d with service := d.service.handle wrote r, drawn := draws r ++ d.drawn } := by
  refine ⟨rfl, rfl, fun u drawn => List.mem_append_right _ drawn, ?_⟩
  intro u drawn waits
  exact confirmable_of_handle (fun new => fresh_of_admits admitted u new drawn) waits

theorem Recorded.restart (recorded : Recorded d) {freshSalt : List UInt8} {readable : Bool}
    {service : Service} (moved : d.service.step (.restart freshSalt readable) = some service) :
    Recorded { d with service := service } := by
  have kept := step_published recorded.kept moved
  cases moved
  exact ⟨kept, recorded.logged, recorded.covered, recorded.ours, recorded.pending⟩

theorem fades_restart {freshSalt : List UInt8} {readable : Bool} {service : Service}
    (moved : d.service.step (.restart freshSalt readable) = some service) :
    Fades d { d with service := service } := by
  refine ⟨rfl, rfl, fun _ drawn => drawn, ?_⟩
  intro u _ waits
  cases moved
  simp only [confirmable] at waits
  rw [(boot_empty _ _ _).1] at waits
  cases waits

/-! ## Runs -/

theorem step_recorded {a : Action} (recorded : Recorded d) (moved : d.step a = some d') :
    Recorded d' := by
  cases a with
  | requestOtp keys phoneNumber userID otp call =>
    simp only [Device.step, Option.ite_none_left_eq_some, Option.some.injEq] at moved
    obtain ⟨new, rfl⟩ := moved
    exact recorded.requestOtp new
  | confirmOtp code call connected =>
    cases moved
    exact recorded.confirmOtp connected
  | onboard keys phoneNumber userID otp devOtp call call' connected =>
    simp only [Device.step, Option.ite_none_left_eq_some, Option.some.injEq] at moved
    obtain ⟨new, rfl⟩ := moved
    exact recorded.onboard new devOtp call' connected
  | linkWithCode token keys userID call connected =>
    simp only [Device.step, Option.ite_none_left_eq_some, Option.some.injEq] at moved
    obtain ⟨new, rfl⟩ := moved
    exact recorded.linkWithCode new token connected
  | resume =>
    obtain ⟨userId, -, rfl⟩ := Option.map_eq_some_iff.mp moved
    exact recorded.frame rfl rfl rfl rfl rfl recorded.pending
  | maintainPreKeys more call =>
    simp only [Device.step] at moved
    split at moved
    · next keys token held _ =>
      cases moved
      exact recorded.maintainPreKeys held token more call
    · cases moved
  | relaunch =>
    cases moved
    refine recorded.frame rfl rfl rfl rfl rfl ?_
    intro u nothing
    cases nothing
  | tick elapsed =>
    cases moved
    exact recorded.frame rfl rfl rfl rfl rfl recorded.pending
  | serve r wrote =>
    simp only [Device.step, Option.ite_none_right_eq_some, Option.some.injEq] at moved
    obtain ⟨admitted, rfl⟩ := moved
    exact recorded.serve admitted wrote
  | restart freshSalt readable =>
    simp only [Device.step, Option.map_eq_some_iff] at moved
    obtain ⟨service, restarted, rfl⟩ := moved
    exact recorded.restart restarted

/-- A sparing step leaves the keys of the next user id. -/
theorem step_matched {a : Action} (recorded : Recorded d) (matched : Matched d)
    (spares : Sparing d a) (moved : d.step a = some d') : Matched d' := by
  cases a with
  | requestOtp keys phoneNumber userID otp call =>
    simp only [Device.step, Option.ite_none_left_eq_some, Option.some.injEq] at moved
    obtain ⟨new, rfl⟩ := moved
    exact matched.requestOtp recorded new spares
  | confirmOtp code call connected =>
    cases moved
    exact matched.confirmOtp recorded connected spares
  | onboard keys phoneNumber userID otp devOtp call call' connected =>
    simp only [Device.step, Option.ite_none_left_eq_some, Option.some.injEq] at moved
    obtain ⟨new, rfl⟩ := moved
    refine matched.onboard recorded new devOtp call' connected (spares.imp_right ?_)
    rintro ⟨idle, registered, rfl, replied, rfl⟩
    exact ⟨idle, onboard_resolved registered replied⟩
  | linkWithCode token keys userID call connected =>
    simp only [Device.step, Option.ite_none_left_eq_some, Option.some.injEq] at moved
    obtain ⟨new, rfl⟩ := moved
    refine matched.linkWithCode recorded new token connected ?_
    cases token with
    | none => exact .inl rfl
    | some t =>
      refine .inr (spares.imp_right fun through => ?_)
      obtain ⟨idle, linked, rfl⟩ := through t rfl
      exact ⟨idle, linkWithCode_resolved linked⟩
  | resume =>
    obtain ⟨userId, last, rfl⟩ := Option.map_eq_some_iff.mp moved
    simp only [Sparing, last] at spares
    exact matched.resume userId spares
  | maintainPreKeys more call =>
    simp only [Device.step] at moved
    split at moved
    · next keys token held _ =>
      cases moved
      exact matched.maintainPreKeys recorded keys token more call
    · cases moved
  | relaunch =>
    cases moved
    intro u next
    cases next
  | tick elapsed =>
    cases moved
    exact matched_of_outlasts recorded matched (fades_tick elapsed) rfl spares
  | serve r wrote =>
    simp only [Device.step, Option.ite_none_right_eq_some, Option.some.injEq] at moved
    obtain ⟨admitted, rfl⟩ := moved
    exact matched_of_outlasts recorded matched (fades_serve admitted wrote) rfl spares
  | restart freshSalt readable =>
    simp only [Device.step, Option.map_eq_some_iff] at moved
    obtain ⟨service, restarted, rfl⟩ := moved
    exact matched_of_outlasts recorded matched (fades_restart restarted) rfl
      (spares service restarted)

theorem inStep_of_matched (recorded : Recorded d) (matched : Matched d) : InStep d := by
  intro userId next acct found
  obtain ⟨-, keys, held, covers⟩ := recorded.covered userId (matched userId next)
  obtain ⟨keyed, published⟩ := recorded.kept.memory userId acct found
  refine ⟨keys, held, ?_, ?_⟩
  · obtain ⟨entry, member, own, publishes⟩ := published.longTerm
    exact (covers entry member (own.trans keyed)).1 _ publishes
  · intro otk inside
    obtain ⟨entry, member, own, supplied⟩ := published.oneTime otk inside
    exact (covers entry member (own.trans keyed)).2 otk supplied

/-- A sparing call that is rejected has minted nothing in place of keys. -/
theorem rejected_intact {a : Action} (spares : Sparing d a) (rejected : d.rejects a = true)
    (moved : d.step a = some d') : Intact d d' := by
  rcases rejects_of_sparing spares rejected with nothing | ⟨keys, userID, call, connected, rfl⟩
  · intro keys held
    rw [nothing] at held
    cases held
  · simp only [Device.step, Option.ite_none_left_eq_some, Option.some.injEq] at moved
    obtain ⟨-, rfl⟩ := moved
    exact fun _ held => held

theorem reached_recorded {ok : Device → Action → Prop} (reached : device.Reached ok d) :
    Recorded d := by
  refine reached.invariant Recorded ?_ fun _ _ _ recorded _ moved => step_recorded recorded moved
  rintro d ⟨path, salt, now, rfl⟩
  have start : DiscoveryService.service.start (started path salt) := ⟨path, salt, rfl⟩
  refine ⟨kept_start start, ?_, ?_, ?_, ?_⟩
  · intro entry member
    cases member
  · intro u given
    cases given
  · intro u own
    cases own
  · intro u waits
    cases waits

theorem reached_matched (reached : device.Reached Sparing d) : Matched d := by
  have known (d : Device) (before : device.Reached Sparing d) : Recorded d :=
    reached_recorded before
  refine reached.invariant_under Matched known ?_ fun _ _ _ recorded matched spares moved =>
    step_matched recorded matched spares moved
  rintro d ⟨path, salt, now, rfl⟩ u next
  cases next

/-- **The keys held are the ones published, in every sparing run.** In every run
in which no call that mints keys is rejected while keys are held, none resolves
over a registration that still waits for its code, no such registration lapses
while another user id is set, and only the identity of the keys held is resumed,
the provider has the private halves of all that Discovery stores for the user id
used next; and a rejected call leaves the keys held. -/
theorem keys_are_the_published_ones (reached : device.Reached Sparing d) :
    InStep d ∧ ∀ a d', Sparing d a → d.rejects a = true → d.step a = some d' → Intact d d' := by
  refine ⟨inStep_of_matched (reached_recorded reached) (reached_matched reached), ?_⟩
  exact fun a d' spares rejected moved => rejected_intact spares rejected moved

/-- Keys with a given identity. -/
def mintedKeys (identityKeyB64 : String) : Registration where
  registrationID := 7
  deviceID := 1
  longTerm := ⟨identityKeyB64, 1, "signed", "signature", 1, "kyber", "signature"⟩
  oneTimePreKeys := [⟨1, "first"⟩]

/-- The first attempt is made offline; the second is confirmed after a wrong
code, and the app restarted. -/
def confirmedAtLast : List Action :=
  [ .requestOtp (mintedKeys "wasted") "+15550100" "alice" "111111" ⟨.unsent, true⟩,
    .requestOtp (mintedKeys "first") "+15550100" "alice" "111111" ⟨.replied, true⟩,
    .confirmOtp "222222" ⟨.replied, true⟩ true,
    .confirmOtp "111111" ⟨.replied, true⟩ true,
    .maintainPreKeys [⟨2, "second"⟩] ⟨.replied, true⟩,
    .relaunch,
    .resume ]

/-- An onboarded user asks for a code while offline. -/
def askedOffline : List Action :=
  [ .onboard (mintedKeys "first") "+15550100" "alice" "111111" true ⟨.replied, true⟩
      ⟨.replied, true⟩ true,
    .requestOtp (mintedKeys "second") "+15550100" "bob" "222222" ⟨.unsent, true⟩ ]

/-- The next user id, the identity key held, and the one published for the user. -/
structure Observed where
  next : Option String
  held : Option String
  published : Option LongTermKeys
  deriving DecidableEq

def observe (d : Device) : Observed :=
  ⟨d.nextUserId, d.keys.map (·.longTerm.identityKeyB64),
    (d.service.store.accounts.lookup "alice").map accountKeys⟩

theorem confirmed_keys_are_published : ∃ d, device.Reached Sparing d ∧
    observe d = ⟨some "alice", some "first", some (mintedKeys "first").longTerm⟩ ∧ InStep d ∧
      ∀ a d', Sparing d a → d.rejects a = true → d.step a = some d' → Intact d d' := by
  have observed : (device.checkedRun Sparing { service := started "" [1, 2], now := 0 }
      confirmedAtLast).map observe =
      some ⟨some "alice", some "first", some (mintedKeys "first").longTerm⟩ := by
    decide +kernel
  obtain ⟨d, ran, seen⟩ := Option.map_eq_some_iff.mp observed
  have reached : device.Reached Sparing d := .checkedRun (.start ⟨"", [1, 2], 0, rfl⟩) _ ran
  exact ⟨d, reached, seen, keys_are_the_published_ones reached⟩

/-- The keys of the account are gone, and the account is still in use. -/
theorem offline_request_destroys_keys : ∃ d, device.Reachable d ∧
    observe d = ⟨some "alice", some "second", some (mintedKeys "first").longTerm⟩ ∧ ¬ InStep d := by
  have observed : (device.run { service := started "" [1, 2], now := 0 } askedOffline).map observe =
      some ⟨some "alice", some "second", some (mintedKeys "first").longTerm⟩ := by
    decide +kernel
  obtain ⟨d, reachable, seen⟩ := Machine.reachable_of_observed observed ⟨"", [1, 2], 0, rfl⟩
  refine ⟨d, reachable, seen, ?_⟩
  intro inStep
  obtain ⟨next, held, published⟩ := Observed.mk.inj seen
  obtain ⟨acct, found, keys⟩ := Option.map_eq_some_iff.mp published
  obtain ⟨registration, own, holds⟩ := inStep "alice" next acct found
  have same := holds.longTerm
  rw [own, Option.map_some, ← same, keys] at held
  exact absurd held (by decide)

end Hwfa.ClientOnboarding
