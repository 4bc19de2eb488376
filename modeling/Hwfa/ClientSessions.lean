import Hwfa.Machines
import Hwfa.Maps

/-!
Sessions and safety numbers in `HwfaClient` (`packages/client/src/client.ts`):
`sendText`, `ensureSession`, `handleDeliver` and the peer identity table.

A call of `sendText` or a delivery is a task.  Its code between two awaits runs
at once; what it awaits (Discovery, the crypto provider) answers in a step of
its own, with whatever answer the step says.  Discovery may answer anything: an
identity that is missing from a bundle is `none`.  A device number that is
missing makes `establishSession` reject.

The crypto provider is `pinned`: which identity key the session with a peer's
device was established with.  An identity is trusted on first use, as the
stores of `packages/crypto` do; sessions of earlier runs may be there from the
start.  The ciphertexts and the relay's socket carry nothing that is read here,
and are left out.
-/

namespace Hwfa.ClientSessions

open Hwfa.Machines Hwfa.Maps

/-- What `ensureSession` reads of a fetched bundle. -/
structure Bundle where
  deviceId : Int
  identityKeyB64 : Option String
  deriving DecidableEq

/-- The two types of ciphertext, as the provider decrypts them. -/
inductive Ciphertext where
  | preKey (identityKeyB64 : String)
  | signal
  deriving DecidableEq

/-- What `handleDeliver` reads of an envelope. -/
structure Envelope where
  senderId : String
  senderDevice : Int
  ciphertext : Ciphertext
  deriving DecidableEq

/-- Where a `sendText` is. -/
inductive Stage where
  /-- waiting for `listDevices` -/
  | listing
  /-- at the head of the loop over the devices -/
  | next
  /-- waiting for `fetchBundle`, without a session -/
  | fetching (deviceUserId : String)
  /-- waiting for `establishSession` -/
  | establishing (deviceUserId : String) (bundle : Bundle)
  | established (deviceUserId : String) (bundle : Bundle)
  /-- waiting for `fetchBundle`, only for the identity -/
  | backfilling (deviceUserId : String) (known : Int)
  /-- `ensureSession` has returned -/
  | encrypting (deviceUserId : String) (peerDevice : Int)
  deriving DecidableEq

structure Send where
  peerUserId : String
  devices : List String
  stage : Stage
  deriving DecidableEq

/-- Where a `handleDeliver` is. -/
inductive Inbound where
  | decrypting (env : Envelope)
  | decrypted (env : Envelope)

structure CachedDevices where
  devices : List String
  at_ : Int

/-- A message that was encrypted, the identity key of the session it was
encrypted with, and the one that was shown for its recipient then. -/
structure Sealed where
  recipientId : String
  recipientDevice : Int
  identityKeyB64 : String
  shown : Option String
  deriving DecidableEq

structure Client where
  userId : Option String := none
  relay : Bool := false
  peerDevice : FinMap String Int := ∅
  peerIdentity : FinMap String (Option String) := ∅
  peerDevices : FinMap String CachedDevices := ∅
  pinned : FinMap (String × Int) String := ∅
  sends : FinMap Nat Send := ∅
  inbound : FinMap Nat Inbound := ∅
  tasks : Nat := 0
  sealed : List Sealed := []

def DEVICE_LIST_TTL_MS : Int := 5 * 60 * 1000

/-- `peerIdentityKey`. -/
def Client.peerIdentityKey (c : Client) (peerUserId : String) : Option String :=
  (c.peerIdentity.lookup peerUserId).join

/-- `setPeerIdentityKey`. -/
def Client.setPeerIdentityKey (c : Client) (peerUserId identityKeyB64 : String) : Client :=
  { c with peerIdentity := c.peerIdentity.insert peerUserId (some identityKeyB64) }

/-- Trust on first use. -/
def Client.trusts (c : Client) (name : String) (device : Int) (identityKeyB64 : String) : Bool :=
  (c.pinned.lookup (name, device)).all (· = identityKeyB64)

def Client.pin (c : Client) (name : String) (device : Int) (identityKeyB64 : String) : Client :=
  { c with pinned := c.pinned.insert (name, device) identityKeyB64 }

def Client.setSend (c : Client) (id : Nat) (task : Send) : Client :=
  { c with sends := c.sends.insert id task }

/-- `sendText` up to its first await: the device list, if it is cached. -/
def Client.sendText (c : Client) (peerUserId : String) (now : Int) : Client :=
  if ! c.relay || c.userId.isNone then c
  else
    let fresh := (c.peerDevices.lookup peerUserId).filter fun cached =>
      now - cached.at_ < DEVICE_LIST_TTL_MS
    let task : Send := match fresh with
      | some cached => ⟨peerUserId, cached.devices, .next⟩
      | none => ⟨peerUserId, [], .listing⟩
    { c.setSend c.tasks task with tasks := c.tasks + 1 }

/-- `devicesForPeer` goes on with the list, or without one. -/
def Client.listed (c : Client) (id : Nat) (task : Send) (reply : Option (List String)) (now : Int) :
    Client :=
  let devices := match reply with
    | some list => if task.peerUserId ∈ list then list else task.peerUserId :: list
    | none => [task.peerUserId]
  { c.setSend id { task with devices := devices, stage := .next } with
    peerDevices := c.peerDevices.insert task.peerUserId ⟨devices, now⟩ }

/-- The head of the loop, and `ensureSession` up to its first await. -/
def Client.loop (c : Client) (id : Nat) (task : Send) : Client :=
  match task.devices with
  | [] => { c with sends := c.sends.erase id }
  | deviceUserId :: rest =>
    if some deviceUserId = c.userId then c.setSend id { task with devices := rest }
    else
      match c.peerDevice.lookup deviceUserId with
      | none => c.setSend id { task with devices := rest, stage := .fetching deviceUserId }
      | some known =>
        if (c.peerIdentity.lookup deviceUserId).isSome then
          c.setSend id { task with devices := rest, stage := .encrypting deviceUserId known }
        else c.setSend id { task with devices := rest, stage := .backfilling deviceUserId known }

/-- `ensureSession` goes on with a bundle, or without one. -/
def Client.fetched (c : Client) (id : Nat) (task : Send) (reply : Option Bundle) : Option Client :=
  match task.stage with
  | .fetching deviceUserId =>
    match reply with
    | none => some (c.setSend id { task with stage := .next })
    | some bundle => some (c.setSend id { task with stage := .establishing deviceUserId bundle })
  | .backfilling deviceUserId known =>
    let c := match reply with
      | none => c
      | some bundle =>
        { c with peerIdentity := c.peerIdentity.insert deviceUserId bundle.identityKeyB64 }
    some (c.setSend id { task with stage := .encrypting deviceUserId known })
  | _ => none

/-- The provider's `establishSession`, which rejects a bundle it cannot read or
does not trust. -/
def Client.establishSession (c : Client) (id : Nat) (task : Send) (accepted : Bool) :
    Option Client :=
  match task.stage with
  | .establishing deviceUserId bundle =>
    match bundle.identityKeyB64 with
    | some identityKeyB64 =>
      if accepted && c.trusts deviceUserId bundle.deviceId identityKeyB64 then
        some ((c.pin deviceUserId bundle.deviceId identityKeyB64).setSend id
          { task with stage := .established deviceUserId bundle })
      else some (c.setSend id { task with stage := .next })
    | none => some (c.setSend id { task with stage := .next })
  | _ => none

/-- The end of `ensureSession`. -/
def Client.ensured (c : Client) (id : Nat) (task : Send) : Option Client :=
  match task.stage with
  | .established deviceUserId bundle =>
    some { c.setSend id { task with stage := .encrypting deviceUserId bundle.deviceId } with
      peerDevice := c.peerDevice.insert deviceUserId bundle.deviceId
      peerIdentity := c.peerIdentity.insert deviceUserId bundle.identityKeyB64 }
  | _ => none

/-- The provider's `encrypt`, which needs a session, and the rest of the round. -/
def Client.encrypt (c : Client) (id : Nat) (task : Send) (accepted : Bool) : Option Client :=
  match task.stage with
  | .encrypting deviceUserId peerDevice =>
    let c := c.setSend id { task with stage := .next }
    match c.pinned.lookup (deviceUserId, peerDevice) with
    | some identityKeyB64 =>
      if accepted then
        let shown := c.peerIdentityKey deviceUserId
        some { c with
          sealed := c.sealed ++ [⟨deviceUserId, peerDevice, identityKeyB64, shown⟩] }
      else some c
    | none => some c
  | _ => none

/-- `handleDeliver` up to its await. -/
def Client.deliver (c : Client) (env : Envelope) : Client :=
  { c with inbound := c.inbound.insert c.tasks (.decrypting env), tasks := c.tasks + 1 }

/-- The provider's `decrypt`; what it rejects ends the task. -/
def Client.decrypt (c : Client) (id : Nat) (env : Envelope) (accepted : Bool) : Client :=
  let rejected := { c with inbound := c.inbound.erase id }
  let decrypted := { c with inbound := c.inbound.insert id (.decrypted env) }
  match env.ciphertext with
  | .preKey identityKeyB64 =>
    if accepted && c.trusts env.senderId env.senderDevice identityKeyB64 then
      decrypted.pin env.senderId env.senderDevice identityKeyB64
    else rejected
  | .signal =>
    if accepted && (c.pinned.lookup (env.senderId, env.senderDevice)).isSome then decrypted
    else rejected

/-- The rest of `handleDeliver`: the device of the peer is learned. -/
def Client.learn (c : Client) (id : Nat) (env : Envelope) : Client :=
  { c with
    inbound := c.inbound.erase id
    peerDevice :=
      if (c.peerDevice.lookup env.senderId).isSome then c.peerDevice
      else c.peerDevice.insert env.senderId env.senderDevice }

inductive Action where
  | resume (userId : String)
  | close
  | setPeerIdentityKey (peerUserId identityKeyB64 : String)
  | sendText (peerUserId : String) (now : Int)
  | listed (id : Nat) (reply : Option (List String)) (now : Int)
  | loop (id : Nat)
  | fetched (id : Nat) (reply : Option Bundle)
  | establishSession (id : Nat) (accepted : Bool)
  | ensured (id : Nat)
  | encrypt (id : Nat) (accepted : Bool)
  | deliver (env : Envelope)
  | decrypt (id : Nat) (accepted : Bool)
  | learn (id : Nat)

def Client.step (c : Client) : Action → Option Client
  | .resume userId => some { c with userId := some userId, relay := true }
  | .close => some { c with relay := false }
  | .setPeerIdentityKey peerUserId identityKeyB64 =>
    some (c.setPeerIdentityKey peerUserId identityKeyB64)
  | .sendText peerUserId now => some (c.sendText peerUserId now)
  | .listed id reply now =>
    (c.sends.lookup id).bind fun task =>
      if task.stage = .listing then some (c.listed id task reply now) else none
  | .loop id =>
    (c.sends.lookup id).bind fun task => if task.stage = .next then some (c.loop id task) else none
  | .fetched id reply => (c.sends.lookup id).bind fun task => c.fetched id task reply
  | .establishSession id accepted =>
    (c.sends.lookup id).bind fun task => c.establishSession id task accepted
  | .ensured id => (c.sends.lookup id).bind fun task => c.ensured id task
  | .encrypt id accepted => (c.sends.lookup id).bind fun task => c.encrypt id task accepted
  | .deliver env => if c.relay then some (c.deliver env) else none
  | .decrypt id accepted =>
    match c.inbound.lookup id with
    | some (.decrypting env) => some (c.decrypt id env accepted)
    | _ => none
  | .learn id =>
    match c.inbound.lookup id with
    | some (.decrypted env) => some (c.learn id env)
    | _ => none

def client : Machine Client Action where
  start c := ∃ pinned, c = { pinned := pinned }
  step := Client.step

/-! ## What a step can do -/

/-- The devices of a peer that some task is about to encrypt to. -/
def committed (sends : FinMap Nat Send) (peerUserId : String) : List Int :=
  sends.values.filterMap fun task =>
    match task.stage with
    | .encrypting deviceUserId peerDevice =>
      if deviceUserId = peerUserId then some peerDevice else none
    | _ => none

theorem mem_committed {sends : FinMap Nat Send} {p : String} {d : Int} :
    d ∈ committed sends p ↔
      ∃ id task, sends.lookup id = some task ∧ task.stage = .encrypting p d := by
  unfold committed
  rw [List.mem_filterMap]
  constructor
  · rintro ⟨task, member, used⟩
    obtain ⟨id, found⟩ := FinMap.mem_values.mp member
    refine ⟨id, task, found, ?_⟩
    split at used
    · next stage =>
      simp only [Option.ite_none_right_eq_some, Option.some.injEq] at used
      obtain ⟨rfl, rfl⟩ := used
      exact stage
    · cases used
  · rintro ⟨id, task, found, stage⟩
    exact ⟨task, FinMap.mem_values.mpr ⟨id, found⟩, by simp [stage]⟩

/-- The devices of a peer whose sessions are encrypted with. -/
def Client.inUse (c : Client) (peerUserId : String) : List Int :=
  (c.peerDevice.lookup peerUserId).toList ++ committed c.sends peerUserId

/-- The actions that neither record a key nor learn a device. -/
def plain : Action → Bool
  | .setPeerIdentityKey .. | .fetched .. | .ensured .. | .learn .. => false
  | _ => true

/-- Every send is one of before, or one that has no session yet or uses a known one. -/
def Follows (c c' : Client) : Prop :=
  ∀ id task, c'.sends.lookup id = some task → c.sends.lookup id = some task ∨
    (∀ p bundle, task.stage ≠ .established p bundle) ∧
      ∀ p d, task.stage = .encrypting p d → c.peerDevice.lookup p = some d

/-- Every way the client moves, as far as keys and sessions go. -/
inductive Moves (c : Client) : Action → Client → Prop where
  | quiet (isPlain : plain a = true) (identity : c'.peerIdentity = c.peerIdentity)
      (device : c'.peerDevice = c.peerDevice) (pinned : c'.pinned = c.pinned)
      (sealed : c'.sealed = c.sealed) (follows : Follows c c') : Moves c a c'
  | records : Moves c (.setPeerIdentityKey p k) (c.setPeerIdentityKey p k)
  | fetches {id : Nat} (found : c.sends.lookup id = some task) (stage : task.stage = .fetching p)
      (early : ∀ p d, stage' ≠ .encrypting p d) (early' : ∀ p bundle, stage' ≠ .established p bundle) :
      Moves c (.fetched id reply) (c.setSend id { task with stage := stage' })
  | backfills {id : Nat} (found : c.sends.lookup id = some task) (stage : task.stage = .backfilling p known)
      (replied : c.fetched id task reply = some c') : Moves c (.fetched id reply) c'
  | pins (isPlain : plain a = true) (trusted : c.trusts name device k = true)
      (identity : c'.peerIdentity = c.peerIdentity) (same : c'.peerDevice = c.peerDevice)
      (pinned : c'.pinned = c.pinned.insert (name, device) k) (sealed : c'.sealed = c.sealed)
      (sends : ∀ id task, c'.sends.lookup id = some task → c.sends.lookup id = some task ∨
        ∃ bundle, task.stage = .established name bundle ∧ bundle.deviceId = device ∧
          bundle.identityKeyB64 = some k) : Moves c a c'
  | ensures {id : Nat} (found : c.sends.lookup id = some task) (stage : task.stage = .established p bundle)
      (ensured : c.ensured id task = some c') : Moves c (.ensured id) c'
  | seals {id : Nat} (found : c.sends.lookup id = some task) (stage : task.stage = .encrypting p d)
      (session : c.pinned.lookup (p, d) = some k) :
      Moves c (.encrypt id true) { c.setSend id { task with stage := .next } with
        sealed := c.sealed ++ [⟨p, d, k, c.peerIdentityKey p⟩] }
  | learns {id : Nat} (found : c.inbound.lookup id = some (.decrypted env)) :
      Moves c (.learn id) (c.learn id env)

variable {c c' : Client} {id : Nat} {task : Send}

/-- A task moves on to a stage without a new session. -/
theorem follows_setSend (id : Nat) (early : ∀ p bundle, task.stage ≠ .established p bundle)
    (known : ∀ p d, task.stage = .encrypting p d → c.peerDevice.lookup p = some d) :
    Follows c (c.setSend id task) := by
  intro id' task' found
  simp only [Client.setSend, FinMap.lookup_insert_apply] at found
  split at found
  · cases found
    exact .inr ⟨early, known⟩
  · exact .inl found

theorem Follows.of_sends (follows : Follows c c') {c'' : Client} (sends : c''.sends = c'.sends) :
    Follows c c'' :=
  fun id task found => follows id task (sends ▸ found)

theorem follows_refl (sends : c'.sends = c.sends) : Follows c c' :=
  fun _ _ found => .inl (sends ▸ found)

theorem follows_erase (id : Nat) : Follows c { c with sends := c.sends.erase id } := by
  intro id' task found
  simp only [FinMap.lookup_erase_apply] at found
  split at found
  · cases found
  · exact .inl found

theorem loop_moves (stage : task.stage = .next) :
    Moves c (.loop id) (c.loop id task) := by
  unfold Client.loop
  split
  · exact .quiet rfl rfl rfl rfl rfl (follows_erase id)
  · next deviceUserId rest devices =>
    split
    · exact .quiet rfl rfl rfl rfl rfl (follows_setSend id (by simp [stage]) (by simp [stage]))
    · split
      · exact .quiet rfl rfl rfl rfl rfl (follows_setSend id (by simp) (by simp))
      · next known device =>
        split
        · refine .quiet rfl rfl rfl rfl rfl (follows_setSend id (by simp) ?_)
          rintro p d same
          cases same
          exact device
        · exact .quiet rfl rfl rfl rfl rfl (follows_setSend id (by simp) (by simp))

theorem fetched_moves {reply : Option Bundle} (found : c.sends.lookup id = some task)
    (replied : c.fetched id task reply = some c') : Moves c (.fetched id reply) c' := by
  cases stage : task.stage with
  | fetching p =>
    simp only [Client.fetched, stage] at replied
    cases reply with
    | none =>
      cases replied
      exact .fetches found stage (by simp) (by simp)
    | some bundle =>
      cases replied
      exact .fetches found stage (by simp) (by simp)
  | backfilling p known => exact .backfills found stage replied
  | _ => simp [Client.fetched, stage] at replied

theorem establishSession_moves {accepted : Bool}
    (answered : c.establishSession id task accepted = some c') :
    Moves c (.establishSession id accepted) c' := by
  unfold Client.establishSession at answered
  split at answered
  · next p bundle stage =>
    have rejected : Moves c (.establishSession id accepted)
        (c.setSend id { task with stage := .next }) :=
      .quiet rfl rfl rfl rfl rfl (follows_setSend id (by simp) (by simp))
    split at answered
    · next k identity =>
      split at answered
      · next trusted =>
        cases answered
        refine .pins rfl (Bool.and_eq_true_iff.mp trusted).2 rfl rfl rfl rfl ?_
        intro id' task' found'
        simp only [Client.setSend, Client.pin, FinMap.lookup_insert_apply] at found'
        split at found'
        · cases found'
          exact .inr ⟨bundle, rfl, rfl, identity⟩
        · exact .inl found'
      · cases answered
        exact rejected
    · cases answered
      exact rejected
  · cases answered

theorem encrypt_moves {accepted : Bool} (found : c.sends.lookup id = some task)
    (answered : c.encrypt id task accepted = some c') : Moves c (.encrypt id accepted) c' := by
  unfold Client.encrypt at answered
  split at answered
  · next p d stage =>
    have rejected : Moves c (.encrypt id accepted) (c.setSend id { task with stage := .next }) :=
      .quiet rfl rfl rfl rfl rfl (follows_setSend id (by simp) (by simp))
    simp only at answered
    split at answered
    · next k session =>
      split at answered
      · next isAccepted =>
        cases answered
        rw [isAccepted]
        exact .seals found stage session
      · cases answered
        exact rejected
    · cases answered
      exact rejected
  · cases answered

theorem decrypt_moves {env : Envelope} {accepted : Bool} :
    Moves c (.decrypt id accepted) (c.decrypt id env accepted) := by
  unfold Client.decrypt
  split
  · next k message =>
    split
    · next trusted =>
      exact .pins rfl (Bool.and_eq_true_iff.mp trusted).2 rfl rfl rfl rfl fun _ _ before =>
        .inl before
    · exact .quiet rfl rfl rfl rfl rfl (follows_refl rfl)
  · split
    · exact .quiet rfl rfl rfl rfl rfl (follows_refl rfl)
    · exact .quiet rfl rfl rfl rfl rfl (follows_refl rfl)

/-- The executable step only moves as listed. -/
theorem step_moves {a : Action} (moved : c.step a = some c') : Moves c a c' := by
  cases a with
  | resume userId | close =>
    cases moved
    exact .quiet rfl rfl rfl rfl rfl (follows_refl rfl)
  | setPeerIdentityKey p k =>
    cases moved
    exact .records
  | sendText peerUserId now =>
    cases moved
    unfold Client.sendText
    split
    · exact .quiet rfl rfl rfl rfl rfl (follows_refl rfl)
    · refine .quiet rfl rfl rfl rfl rfl ?_
      refine (follows_setSend c.tasks ?_ ?_).of_sends rfl
      · split <;> simp
      · split <;> simp
  | listed id reply now =>
    obtain ⟨task, found, moved⟩ := Option.bind_eq_some_iff.mp moved
    split at moved
    · cases moved
      refine .quiet rfl rfl rfl rfl rfl ?_
      exact (follows_setSend id (by simp) (by simp)).of_sends rfl
    · cases moved
  | loop id =>
    obtain ⟨task, -, moved⟩ := Option.bind_eq_some_iff.mp moved
    split at moved
    · next stage =>
      cases moved
      exact loop_moves stage
    · cases moved
  | fetched id reply =>
    obtain ⟨task, found, moved⟩ := Option.bind_eq_some_iff.mp moved
    exact fetched_moves found moved
  | establishSession id accepted =>
    obtain ⟨task, -, moved⟩ := Option.bind_eq_some_iff.mp moved
    exact establishSession_moves moved
  | ensured id =>
    obtain ⟨task, found, moved⟩ := Option.bind_eq_some_iff.mp moved
    have moved' := moved
    unfold Client.ensured at moved'
    split at moved'
    · next p bundle stage => exact .ensures found stage moved
    · cases moved'
  | encrypt id accepted =>
    obtain ⟨task, found, moved⟩ := Option.bind_eq_some_iff.mp moved
    exact encrypt_moves found moved
  | deliver env =>
    simp only [Client.step, Option.ite_none_right_eq_some, Option.some.injEq] at moved
    obtain ⟨-, rfl⟩ := moved
    exact .quiet rfl rfl rfl rfl rfl (follows_refl rfl)
  | decrypt id accepted =>
    simp only [Client.step] at moved
    split at moved
    · cases moved
      exact decrypt_moves
    · cases moved
  | learn id =>
    simp only [Client.step] at moved
    split at moved
    · next env found =>
      cases moved
      exact .learns found
    · cases moved

end Hwfa.ClientSessions
