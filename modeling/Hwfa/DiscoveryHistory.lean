import Hwfa.DiscoveryRevocation

/-!
The Discovery service with the history of its codes and link tokens.

As in `DiscoveryRevocation` the names it draws are new and not empty, and the
`linkToken` handler is three steps.  Here anybody may call it, with any bearer
token and at any time: what the history says of a code or of a link token is to
hold whatever the clock does.  Writes may fail, and a restart may read an older
file or none.

`events` is the history, the newest event first; no method reads it.
-/

namespace Hwfa.DiscoveryHistory

open Hwfa.Machines Hwfa.Maps Hwfa.DiscoveryStore Hwfa.DiscoveryService Hwfa.DiscoveryRecords
  Hwfa.DiscoveryCredentials
open Hwfa.DiscoveryRevocation (Call)

abbrev Accounts := FinMap String Account

/-- What the history remembers. -/
inductive Event where
  /-- `register` has returned the pair -/
  | issued (userID code : String) (time : Int)
  /-- `verify` was called; what came of the comparison, if there was one, and of the call -/
  | guessed (userID code : String) (compared : Option Bool) (succeeded : Bool)
  /-- `accountIDFor` has answered a `linkToken` handler, over these accounts -/
  | resolved (call : Nat) (userID accountID : String) (accounts : Accounts)
  /-- the handler's `createLinkToken` has returned -/
  | minted (call : Nat) (token accountID : String) (time : Int)
  /-- `linkDevice` has succeeded, over these accounts -/
  | linked (token userID accountID : String) (time : Int) (accounts : Accounts)
  | restarted

structure Chronicle where
  service : Service
  drawn : List String := [""]
  calls : FinMap Nat Call := ∅
  begun : Nat := 0
  events : List Event := []

inductive Action where
  | request (r : Request) (wrote : Bool)
  /-- `linkToken` up to its first critical section -/
  | linkToken (token : Token) (now : Int)
  | accountIDFor (call : Nat)
  | createLinkToken (call : Nat) (token : String) (now : Int)
  | restart (freshSalt : List UInt8) (readable : Bool)

/-- The comparison that `verify` makes, if it gets there. -/
def compared (s : Store) (userID code : String) (now : Int) : Option Bool :=
  match s.pending.lookup userID with
  | none => none
  | some p => if p.expiresAt < now then none else some (p.code = code)

/-- What a request adds to the history. -/
def told (s : Store) : Request → List Event
  | .register req userID otp now =>
    match (s.register req userID otp now).result with
    | some (userID, otp) => [.issued userID otp now]
    | none => []
  | .verify userID code now =>
    [.guessed userID code (compared s userID code now) (s.verify userID code now).result.isSome]
  | .linkDevice token req userID now =>
    match (s.linkDevice token req userID now).result with
    | some (userID, accountID, _, _) => [.linked token userID accountID now s.accounts]
    | none => []
  | _ => []

/-- The request draws new names; link tokens are minted by the handler only. -/
def Chronicle.fits (s : Chronicle) (r : Request) : Bool :=
  !mints r && (draws r).all (· ∉ s.drawn)

def Chronicle.request (s : Chronicle) (r : Request) (wrote : Bool) : Chronicle :=
  { s with
    service := s.service.handle wrote r
    drawn := draws r ++ s.drawn
    events := told s.service.store r ++ s.events }

def Chronicle.linkToken (s : Chronicle) (token : Token) (now : Int) : Chronicle :=
  match userForToken token now with
  | some userID =>
    { s with calls := s.calls.insert s.begun (.authenticated userID), begun := s.begun + 1 }
  | none => s

def Chronicle.accountIDFor (s : Chronicle) (call : Nat) (userID : String) : Chronicle :=
  match s.service.store.accountIDFor userID with
  | some accountID =>
    { s with
      calls := s.calls.insert call (.resolved userID accountID)
      events := .resolved call userID accountID s.service.store.accounts :: s.events }
  | none => { s with calls := s.calls.erase call }

def Chronicle.createLinkToken (s : Chronicle) (call : Nat) (accountID token : String) (now : Int) :
    Chronicle :=
  { s with
    service := s.service.handle false (.createLinkToken accountID token now)
    drawn := token :: s.drawn
    calls := s.calls.erase call
    events := .minted call token accountID now :: s.events }

def Chronicle.restart (s : Chronicle) (freshSalt : List UInt8) (readable : Bool) : Chronicle :=
  { s with
    service := { s.service with
      store := boot s.service.store.path freshSalt (if readable then s.service.disk else none) }
    calls := ∅
    events := .restarted :: s.events }

def Chronicle.step (s : Chronicle) : Action → Option Chronicle
  | .request r wrote => if s.fits r then some (s.request r wrote) else none
  | .linkToken token now => some (s.linkToken token now)
  | .accountIDFor call =>
    match s.calls.lookup call with
    | some (.authenticated userID) => some (s.accountIDFor call userID)
    | _ => none
  | .createLinkToken call token now =>
    match s.calls.lookup call with
    | some (.resolved _ accountID) =>
      if token ∈ s.drawn then none else some (s.createLinkToken call accountID token now)
    | _ => none
  | .restart freshSalt readable => some (s.restart freshSalt readable)

/-- The service over a fresh file. -/
def chronicle : Machine Chronicle Action where
  start s := ∃ path salt, s = { service := started path salt }
  step := Chronicle.step

/-! ## What a request does to the store -/

/-- Every way a request changes accounts, codes and link tokens. -/
inductive Handled (s : Store) : Request → Store → Prop where
  | idle (other : ∀ userID code now, r ≠ .verify userID code now) (nothing : told s r = [])
      (accounts : s'.accounts = s.accounts) (pending : s'.pending = s.pending)
      (linkTokens : s'.linkTokens = s.linkTokens) : Handled s r s'
  | register (result : (s.register req userID otp now).result = some (userID, otp))
      (accounts : s'.accounts =
        s.accounts.insert userID (newAccount userID (hashPhone s.salt req.phoneNumber) req))
      (pending : s'.pending = s.pending.insert userID ⟨otp, now + otpTTL, 0⟩)
      (linkTokens : s'.linkTokens = s.linkTokens) : Handled s (.register req userID otp now) s'
  | refused (nothing : compared s userID code now = none)
      (result : (s.verify userID code now).result = none)
      (accounts : s'.accounts = s.accounts)
      (pending : ∀ k p, s'.pending.lookup k = some p → s.pending.lookup k = some p ∧ k ≠ userID)
      (linkTokens : s'.linkTokens = s.linkTokens) : Handled s (.verify userID code now) s'
  | wrong (found : s.pending.lookup userID = some p) (inTime : ¬ p.expiresAt < now)
      (wrong : p.code ≠ code) (result : (s.verify userID code now).result = none)
      (accounts : s'.accounts = s.accounts)
      (pending : s'.pending = s.pending.erase userID ∧ maxOTPAttempts ≤ p.attempts + 1 ∨
        s'.pending = s.pending.insert userID { p with attempts := p.attempts + 1 } ∧
          p.attempts + 1 < maxOTPAttempts)
      (linkTokens : s'.linkTokens = s.linkTokens) : Handled s (.verify userID code now) s'
  | missing (found : s.pending.lookup userID = some p) (inTime : ¬ p.expiresAt < now)
      (right : p.code = code) (absent : s.accounts.lookup userID = none)
      (result : (s.verify userID code now).result = none)
      (accounts : s'.accounts = s.accounts) (pending : s'.pending = s.pending)
      (linkTokens : s'.linkTokens = s.linkTokens) : Handled s (.verify userID code now) s'
  | verify (found : s.pending.lookup userID = some p) (inTime : ¬ p.expiresAt < now)
      (right : p.code = code) (record : s.accounts.lookup userID = some acct)
      (result : (s.verify userID code now).result = some (issueTokens userID now))
      (accounts : s'.accounts = s.accounts.insert userID { acct with verified := true })
      (pending : s'.pending = s.pending.erase userID)
      (linkTokens : s'.linkTokens = s.linkTokens) : Handled s (.verify userID code now) s'
  | expired (nothing : told s (.linkDevice token req userID now) = [])
      (accounts : s'.accounts = s.accounts) (pending : s'.pending = s.pending)
      (linkTokens : s'.linkTokens = s.linkTokens.erase token) :
      Handled s (.linkDevice token req userID now) s'
  | linkDevice (alive : s.linkTokens.lookup token = some lt) (inTime : ¬ lt.expiresAt < now)
      (primary : s.accounts.lookup lt.accountID = some acct)
      (result : told s (.linkDevice token req userID now) =
        [.linked token userID lt.accountID now s.accounts])
      (accounts : s'.accounts = s.accounts.insert userID (linkedAccount userID lt.accountID req))
      (pending : s'.pending = s.pending) (linkTokens : s'.linkTokens = s.linkTokens.erase token) :
      Handled s (.linkDevice token req userID now) s'
  | deleteAccount (found : s.accounts.lookup userID = some caller)
      (accounts : ∀ k a, s'.accounts.lookup k = some a ↔
        s.accounts.lookup k = some a ∧ a.accountID ≠ caller.accountID)
      (pending : ∀ k p, s'.pending.lookup k = some p → s.pending.lookup k = some p ∧
        ∀ a, s.accounts.lookup k = some a → a.accountID ≠ caller.accountID)
      (linkTokens : s'.linkTokens = s.linkTokens) : Handled s (.deleteAccount userID) s'
  | removeDevice (found : s.accounts.lookup target = some acct) (secondary : target ≠ acct.accountID)
      (accounts : s'.accounts = s.accounts.erase target)
      (pending : s'.pending = s.pending.erase target)
      (linkTokens : s'.linkTokens = s.linkTokens) : Handled s (.removeDevice caller target) s'
  | pool (keys : List OneTimePreKey) (nothing : told s r = [])
      (other : ∀ userID code now, r ≠ .verify userID code now)
      (found : s.accounts.lookup userID = some acct)
      (accounts : s'.accounts = s.accounts.insert userID { acct with oneTime := keys })
      (pending : s'.pending = s.pending) (linkTokens : s'.linkTokens = s.linkTokens) :
      Handled s r s'

variable {s : Service} {r : Request} {wrote : Bool} {k : String}

/-- A name that is erased has no entry any more. -/
theorem lookup_foldl_erase_of_mem {ν : Type} {names : List String} (m : FinMap String ν)
    (member : k ∈ names) : (names.foldl (fun m name => m.erase name) m).lookup k = none := by
  induction names generalizing m with
  | nil => cases member
  | cons name rest ih =>
    by_cases later : k ∈ rest
    · exact ih _ later
    · obtain rfl | inside := List.mem_cons.mp member
      · cases found : (rest.foldl (fun m name => m.erase name) (m.erase k)).lookup k with
        | none => exact found
        | some x =>
          have before := lookup_foldl_erase rest (m.erase k) found
          rw [AList.lookup_erase] at before
          cases before
      · exact absurd inside later

theorem handled_verify (store : Store) (userID code : String) (now : Int) :
    Handled store (.verify userID code now) (store.verify userID code now).store := by
  cases found : store.pending.lookup userID with
  | none =>
    refine .refused ?_ ?_ ?_ ?_ ?_
    · simp [compared, found]
    · simp [Store.verify, found]
    · simp [Store.verify, found]
    · intro k p pending
      simp only [Store.verify, found] at pending
      refine ⟨pending, ?_⟩
      rintro rfl
      rw [found] at pending
      cases pending
    · simp [Store.verify, found]
  | some p =>
    by_cases expired : p.expiresAt < now
    · refine .refused ?_ ?_ ?_ ?_ ?_
      · simp [compared, found, expired]
      · simp [Store.verify, found, expired]
      · simp [Store.verify, found, expired]
      · intro k q pending
        simp only [Store.verify, found, expired, ↓reduceIte, FinMap.lookup_erase_apply] at pending
        split at pending
        · cases pending
        · next other => exact ⟨pending, other⟩
      · simp [Store.verify, found, expired]
    · by_cases right : p.code = code
      · cases record : store.accounts.lookup userID with
        | none =>
          have same : (store.verify userID code now).store = store := by
            simp [Store.verify, found, expired, right, record]
          rw [same]
          exact .missing found expired right record
            (by simp [Store.verify, found, expired, right, record]) rfl rfl rfl
        | some acct =>
          refine .verify found expired right record ?_ ?_ ?_ ?_ <;>
            simp [Store.verify, found, expired, right, record]
      · by_cases burnt : maxOTPAttempts ≤ p.attempts + 1
        · refine .wrong found expired right ?_ ?_ (.inl ⟨?_, burnt⟩) ?_ <;>
            simp [Store.verify, found, expired, right, burnt]
        · refine .wrong found expired right ?_ ?_ (.inr ⟨?_, by omega⟩) ?_ <;>
            simp [Store.verify, found, expired, right, burnt]

theorem handled_linkDevice (store : Store) (token : String) (req : RegisterRequest)
    (userID : String) (now : Int) :
    Handled store (.linkDevice token req userID now)
      (store.linkDevice token req userID now).store := by
  have other (u code : String) (time : Int) :
      Request.linkDevice token req userID now ≠ .verify u code time := by simp
  cases alive : store.linkTokens.lookup token with
  | none =>
    refine .idle other ?_ ?_ ?_ ?_ <;> simp [told, Store.linkDevice, alive]
  | some lt =>
    by_cases expired : lt.expiresAt < now
    · refine .expired ?_ ?_ ?_ ?_ <;> simp [told, Store.linkDevice, alive, expired]
    · cases primary : store.accounts.lookup lt.accountID with
      | none =>
        refine .idle other ?_ ?_ ?_ ?_ <;>
          simp [told, Store.linkDevice, alive, expired, primary]
      | some acct =>
        refine .linkDevice alive expired primary ?_ ?_ ?_ ?_ <;>
          simp [told, Store.linkDevice, alive, expired, primary, linkedAccount]

theorem handled_deleteAccount (store : Store) (userID : String) :
    Handled store (.deleteAccount userID) (store.deleteAccount userID).store := by
  cases found : store.accounts.lookup userID with
  | none =>
    refine .idle (by simp) ?_ ?_ ?_ ?_ <;> simp [told, Store.deleteAccount, found]
  | some caller =>
    refine .deleteAccount found (fun k a => lookup_deleteAccount found) ?_ ?_
    · intro k p pending
      simp only [Store.deleteAccount, found] at pending
      refine ⟨lookup_foldl_erase _ _ pending, ?_⟩
      intro a record same
      have doomed : k ∈ (store.accounts.keep fun _ a => a.accountID = caller.accountID).keys := by
        rw [← AList.mem_keys, ← AList.lookup_isSome, FinMap.lookup_keep.mpr ⟨record, by simpa⟩]
        rfl
      rw [lookup_foldl_erase_of_mem _ doomed] at pending
      cases pending
    · simp [Store.deleteAccount, found]

theorem handled_removeDevice (store : Store) (caller target : String) :
    Handled store (.removeDevice caller target) (store.removeDevice caller target).store := by
  have idle (same : (store.removeDevice caller target).store = store) :
      Handled store (.removeDevice caller target) (store.removeDevice caller target).store := by
    rw [same]
    exact .idle (by simp) rfl rfl rfl rfl
  cases own : store.accounts.lookup caller with
  | none => exact idle (by simp [Store.removeDevice, own])
  | some a =>
    cases found : store.accounts.lookup target with
    | none => exact idle (by simp [Store.removeDevice, own, found])
    | some b =>
      by_cases apart : b.accountID ≠ a.accountID
      · exact idle (by simp [Store.removeDevice, own, found, apart])
      · by_cases primary : target = b.accountID
        · exact idle (by simp [Store.removeDevice, own, found, ← primary])
        · refine .removeDevice found primary ?_ ?_ ?_ <;>
            simp [Store.removeDevice, own, found, apart, primary]

theorem handled_bundleFor (store : Store) (userID : String) :
    Handled store (.bundleFor userID) (store.bundleFor userID).store := by
  have idle (same : (store.bundleFor userID).store = store) :
      Handled store (.bundleFor userID) (store.bundleFor userID).store := by
    rw [same]
    exact .idle (by simp) rfl rfl rfl rfl
  cases found : store.accounts.lookup userID with
  | none => exact idle (by simp [Store.bundleFor, found])
  | some acct =>
    by_cases verified : acct.verified = true
    · cases pool : acct.oneTime with
      | nil => exact idle (by simp [Store.bundleFor, found, verified, pool])
      | cons otk rest =>
        refine .pool rest rfl (by simp) found ?_ ?_ ?_ <;>
          simp [Store.bundleFor, found, verified, pool]
    · exact idle (by simp [Store.bundleFor, found, verified])

/-- A request changes the store as listed. -/
theorem handle_handled (s : Service) (wrote : Bool) (unminted : mints r = false) :
    Handled s.store r (s.handle wrote r).store := by
  cases r with
  | register req userID otp now =>
    simp only [Service.handle, Service.commit]
    by_cases throttled : (s.store.lastRegister.lookup (hashPhone s.store.salt req.phoneNumber)).any
        fun last => now - last < registerCooldown
    · refine .idle (by simp) ?_ ?_ ?_ ?_ <;> simp [told, Store.register, throttled]
    · refine .register ?_ ?_ ?_ ?_ <;> simp [Store.register, throttled]
  | verify userID code now => exact handled_verify s.store userID code now
  | createLinkToken accountID token now => cases unminted
  | linkDevice token req userID now => exact handled_linkDevice s.store token req userID now
  | deleteAccount userID => exact handled_deleteAccount s.store userID
  | removeDevice caller target => exact handled_removeDevice s.store caller target
  | bundleFor userID => exact handled_bundleFor s.store userID
  | addOneTime userID keys =>
    simp only [Service.handle, Service.commit]
    cases found : s.store.accounts.lookup userID with
    | none => refine .idle (by simp) ?_ ?_ ?_ ?_ <;> simp [told, Store.addOneTime, found]
    | some acct =>
      refine .pool (acct.oneTime ++ keys) rfl (by simp) found ?_ ?_ ?_ <;>
        simp [Store.addOneTime, found]
  | allowIntersect uid n now =>
    simp only [Service.handle, Service.commit, Store.allowIntersect]
    split
    · exact .idle (by simp) rfl rfl rfl rfl
    · exact .idle (by simp) rfl rfl rfl rfl

theorem commit_disk {ρ : Type} (s : Service) (o : Outcome ρ) (wrote : Bool)
    (entries : ρ → List Entry) : (s.commit o wrote entries).disk = s.disk ∨
      (s.commit o wrote entries).disk = o.store.persistLocked wrote s.disk := by
  unfold Service.commit
  dsimp only
  split
  · exact .inr rfl
  · exact .inl rfl

/-- A request leaves the file alone or writes the store into it. -/
theorem handle_disk (s : Service) (r : Request) (wrote : Bool) :
    (s.handle wrote r).disk = s.disk ∨
      (s.handle wrote r).disk = (s.handle wrote r).store.persistLocked wrote s.disk := by
  cases r with
  | createLinkToken => exact .inl rfl
  | _ => exact commit_disk ..

theorem handle_path (s : Service) (r : Request) (wrote : Bool) :
    (s.handle wrote r).store.path = s.store.path := by
  have moves := step_moves (s := s) (a := .request r wrote) rfl
  generalize s.handle wrote r = after at moves ⊢
  cases moves with
  | idle _ path => exact path
  | serveReusable => rfl
  | store _ _ path => exact path
  | deleteAccount _ _ path => exact path
  | removeDevice _ _ _ path => exact path

end Hwfa.DiscoveryHistory
