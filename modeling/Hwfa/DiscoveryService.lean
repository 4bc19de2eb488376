import Hwfa.DiscoveryStore
import Hwfa.Machines

/-!
The Discovery service as a machine: requests from anywhere, in any order, with
the outcome of every file write, and restarts over the file.

`log` is a history of what the store's methods were asked and answered; no
request reads it.
-/

namespace Hwfa.DiscoveryService

open Hwfa.Machines Hwfa.Maps Hwfa.DiscoveryStore

/-- A store method that changes the store, with its arguments. -/
inductive Request where
  | register (req : RegisterRequest) (userID otp : String) (now : Int)
  | verify (userID code : String) (now : Int)
  | createLinkToken (accountID token : String) (now : Int)
  | linkDevice (token : String) (req : RegisterRequest) (userID : String) (now : Int)
  | deleteAccount (userID : String)
  | removeDevice (callerUserID targetUserID : String)
  | bundleFor (userID : String)
  | addOneTime (userID : String) (keys : List OneTimePreKey)
  | allowIntersect (uid : String) (n : Nat) (now : Int)

/-- A request that succeeded. -/
inductive Entry where
  | registered (userID : String) (req : RegisterRequest)
  | verified (userID phoneHashB64 : String)
  | linked (userID : String) (req : RegisterRequest)
  | served (userID : String) (bundle : PublishedKeyBundle)
  | uploaded (userID : String) (keys : List OneTimePreKey)

structure Service where
  store : Store
  disk : Option PersistedState
  log : List Entry := []

/-- The method has run; `entries` reads its result. -/
def Service.commit (s : Service) (o : Outcome ρ) (wrote : Bool) (entries : ρ → List Entry) :
    Service where
  store := o.store
  disk := if o.persists then o.store.persistLocked wrote s.disk else s.disk
  log := s.log ++ entries o.result

/-- The phone hash a verified account is entered under. -/
def phoneHashOf (s : Store) (userID : String) : String :=
  ((s.accounts.lookup userID).map (·.phoneHashB64)).getD ""

def Service.handle (s : Service) (wrote : Bool) : Request → Service
  | .register req userID otp now =>
    s.commit (s.store.register req userID otp now) wrote fun result =>
      if result.isSome then [.registered userID req] else []
  | .verify userID code now =>
    s.commit (s.store.verify userID code now) wrote fun result =>
      if result.isSome then [.verified userID (phoneHashOf s.store userID)] else []
  | .createLinkToken accountID token now =>
    { s with store := s.store.createLinkToken accountID token now }
  | .linkDevice token req userID now =>
    s.commit (s.store.linkDevice token req userID now) wrote fun result =>
      if result.isSome then [.linked userID req] else []
  | .deleteAccount userID => s.commit (s.store.deleteAccount userID) wrote fun _ => []
  | .removeDevice caller target => s.commit (s.store.removeDevice caller target) wrote fun _ => []
  | .bundleFor userID =>
    s.commit (s.store.bundleFor userID) wrote fun result =>
      result.toList.map (.served userID)
  | .addOneTime userID keys =>
    s.commit (s.store.addOneTime userID keys) wrote fun result =>
      if result.isSome then [.uploaded userID keys] else []
  | .allowIntersect uid n now => s.commit (s.store.allowIntersect uid n now) wrote fun _ => []

/-- A request, with whether a file write during it goes through, or a restart,
with the salt drawn for it and whether the file can be read. -/
inductive Action where
  | request (r : Request) (wrote : Bool)
  | restart (freshSalt : List UInt8) (readable : Bool)

def Service.step (s : Service) : Action → Option Service
  | .request r wrote => some (s.handle wrote r)
  | .restart freshSalt readable =>
    some { s with store := boot s.store.path freshSalt (if readable then s.disk else none) }

/-- The service over a fresh file. -/
def started (path : String) (salt : List UInt8) : Service where
  store := { path := path, salt := salt }
  disk := none

def service : Machine Service Action where
  start s := ∃ path salt, s = started path salt
  step := Service.step

/-! ## What a step can do to the accounts -/

/-- The record `linkDevice` stores. -/
def linkedAccount (userID accountID : String) (req : RegisterRequest) : Account :=
  { newAccount userID "" req with
    accountID := accountID
    deviceID := if req.deviceID = 0 then 1 else req.deviceID
    verified := true }

/-- Every way a request stores an account record, and what is logged for it. -/
inductive Stores (s : Store) : Request → String → Account → Entry → Prop where
  | register :
      Stores s (.register req userID otp now) userID
        (newAccount userID (hashPhone s.salt req.phoneNumber) req) (.registered userID req)
  | verify (found : s.accounts.lookup userID = some acct)
      (pending : s.pending.lookup userID = some p) (inTime : ¬ p.expiresAt < now)
      (right : p.code = code) :
      Stores s (.verify userID code now) userID { acct with verified := true }
        (.verified userID acct.phoneHashB64)
  | linkDevice (primary : s.accounts.lookup accountID = some acct) :
      Stores s (.linkDevice token req userID now) userID (linkedAccount userID accountID req)
        (.linked userID req)
  | bundleFor (found : s.accounts.lookup userID = some acct) (verified : acct.verified = true)
      (pool : acct.oneTime = otk :: rest) :
      Stores s (.bundleFor userID) userID { acct with oneTime := rest }
        (.served userID { longTermBundle acct with
          oneTimePreKeyID := some otk.id
          oneTimePreKeyPublicB64 := some otk.publicB64 })
  | addOneTime (found : s.accounts.lookup userID = some acct) :
      Stores s (.addOneTime userID keys) userID { acct with oneTime := acct.oneTime ++ keys }
        (.uploaded userID keys)

/-- Every way the service moves, as far as the accounts, the file and the log go. -/
inductive Moves (s : Service) : Action → Service → Prop where
  | idle (accounts : s'.store.accounts = s.store.accounts) (path : s'.store.path = s.store.path)
      (salt : s'.store.salt = s.store.salt) (disk : s'.disk = s.disk) (log : s'.log = s.log) :
      Moves s (.request r wrote) s'
  | serveReusable (found : s.store.accounts.lookup userID = some acct)
      (verified : acct.verified = true) (pool : acct.oneTime = []) :
      Moves s (.request (.bundleFor userID) wrote)
        { s with log := s.log ++ [.served userID (longTermBundle acct)] }
  | store (stores : Stores s.store r k acct entry)
      (accounts : s'.store.accounts = s.store.accounts.insert k acct)
      (path : s'.store.path = s.store.path) (salt : s'.store.salt = s.store.salt)
      (disk : s'.disk = s'.store.persistLocked wrote s.disk) (log : s'.log = s.log ++ [entry]) :
      Moves s (.request r wrote) s'
  | deleteAccount (found : s.store.accounts.lookup userID = some caller)
      (accounts : ∀ k a, s'.store.accounts.lookup k = some a ↔
        s.store.accounts.lookup k = some a ∧ a.accountID ≠ caller.accountID)
      (path : s'.store.path = s.store.path) (salt : s'.store.salt = s.store.salt)
      (disk : s'.disk = s'.store.persistLocked wrote s.disk) (log : s'.log = s.log) :
      Moves s (.request (.deleteAccount userID) wrote) s'
  | removeDevice (found : s.store.accounts.lookup target = some acct)
      (secondary : target ≠ acct.accountID)
      (accounts : ∀ k a, s'.store.accounts.lookup k = some a ↔
        s.store.accounts.lookup k = some a ∧ k ≠ target)
      (path : s'.store.path = s.store.path) (salt : s'.store.salt = s.store.salt)
      (disk : s'.disk = s'.store.persistLocked wrote s.disk) (log : s'.log = s.log) :
      Moves s (.request (.removeDevice caller target) wrote) s'
  | restart :
      Moves s (.restart freshSalt readable)
        { s with store := boot s.store.path freshSalt (if readable then s.disk else none) }

variable {s s' : Service}

private theorem idle_of_store {store : Store} {r : Request} {wrote : Bool}
    (accounts : store.accounts = s.store.accounts) (path : store.path = s.store.path)
    (salt : store.salt = s.store.salt) :
    Moves s (.request r wrote) { s with store := store, log := s.log ++ [] } :=
  .idle accounts path salt rfl (List.append_nil _)

/-- Deletion drops every record of the caller's account and no other. -/
theorem lookup_deleteAccount {s : Store} {userID k : String} {caller a : Account}
    (found : s.accounts.lookup userID = some caller) :
    (s.deleteAccount userID).store.accounts.lookup k = some a ↔
      s.accounts.lookup k = some a ∧ a.accountID ≠ caller.accountID := by
  have kept := FinMap.lookup_keep (m := s.accounts) (k := k) (x := a)
    (p := fun _ a => a.accountID ≠ caller.accountID)
  simpa [Store.deleteAccount, found] using kept

/-- The executable step only moves as listed. -/
theorem step_moves {a : Action} (moved : s.step a = some s') : Moves s a s' := by
  cases a with
  | restart freshSalt readable =>
    cases moved
    exact .restart
  | request r wrote =>
    cases moved
    cases r with
    | register req userID otp now =>
      simp only [Service.handle, Store.register]
      split
      · exact idle_of_store rfl rfl rfl
      · exact .store .register rfl rfl rfl rfl rfl
    | verify userID code now =>
      simp only [Service.handle, Store.verify]
      split
      · exact idle_of_store rfl rfl rfl
      · next p pending =>
        split
        · exact idle_of_store rfl rfl rfl
        · next inTime =>
          split
          · split
            · exact idle_of_store rfl rfl rfl
            · exact idle_of_store rfl rfl rfl
          · next right =>
            split
            · exact idle_of_store rfl rfl rfl
            · next acct found =>
              refine .store (.verify found pending inTime (not_not.mp right)) rfl rfl rfl rfl ?_
              simp [Service.commit, phoneHashOf, found]
    | createLinkToken accountID token now => exact .idle rfl rfl rfl rfl rfl
    | linkDevice token req userID now =>
      simp only [Service.handle, Store.linkDevice]
      split
      · exact idle_of_store rfl rfl rfl
      · split
        · exact idle_of_store rfl rfl rfl
        · split
          · exact idle_of_store rfl rfl rfl
          · next acct primary => exact .store (.linkDevice primary) rfl rfl rfl rfl rfl
    | deleteAccount userID =>
      have dropped (caller : Account) (found : s.store.accounts.lookup userID = some caller) :=
        fun k a => lookup_deleteAccount (k := k) (a := a) found
      simp only [Service.handle, Store.deleteAccount] at dropped ⊢
      split
      · exact idle_of_store rfl rfl rfl
      · next caller found =>
        refine .deleteAccount found ?_ rfl rfl rfl (List.append_nil _)
        have kept := dropped caller found
        simp only [found] at kept
        exact kept
    | removeDevice callerID target =>
      simp only [Service.handle, Store.removeDevice]
      split
      · next caller acct _ found =>
        split
        · exact idle_of_store rfl rfl rfl
        · split
          · exact idle_of_store rfl rfl rfl
          · next secondary =>
            refine .removeDevice found secondary ?_ rfl rfl rfl (List.append_nil _)
            intro k a
            by_cases own : k = target
            · subst own
              simp [Service.commit, AList.lookup_erase]
            · simp [Service.commit, own, AList.lookup_erase_ne own]
      · exact idle_of_store rfl rfl rfl
    | bundleFor userID =>
      simp only [Service.handle, Store.bundleFor]
      split
      · exact idle_of_store rfl rfl rfl
      · next acct found =>
        split
        · next verified =>
          split
          · next pool => exact .serveReusable found verified pool
          · next otk rest pool => exact .store (.bundleFor found verified pool) rfl rfl rfl rfl rfl
        · exact idle_of_store rfl rfl rfl
    | addOneTime userID keys =>
      simp only [Service.handle, Store.addOneTime]
      split
      · exact idle_of_store rfl rfl rfl
      · next acct found => exact .store (.addOneTime found) rfl rfl rfl rfl rfl
    | allowIntersect uid n now =>
      simp only [Service.handle, Store.allowIntersect]
      split
      · exact idle_of_store rfl rfl rfl
      · exact idle_of_store rfl rfl rfl

/-! ## A device -/

/-- What a device publishes, with these one-time prekeys. -/
def deviceKeys (phoneNumber : String) (oneTimePreKeys : List OneTimePreKey := []) :
    RegisterRequest where
  phoneNumber := phoneNumber
  deviceID := 1
  registrationID := 77
  identityKeyB64 := "aWRlbnRpdHk="
  signedPreKeyID := 1
  signedPreKeyPublicB64 := "c2lnbmVk"
  signedPreKeySignatureB64 := "c2ln"
  kyberPreKeyID := 1
  kyberPreKeyPublicB64 := "a3liZXI="
  kyberPreKeySignatureB64 := "a3NpZw=="
  oneTimePreKeys := oneTimePreKeys

end Hwfa.DiscoveryService
