import Hwfa.Base64
import Hwfa.Maps
import Hwfa.Sha256

/-!
The Discovery store (`backend/discovery/store.go`): accounts, one-time codes,
link tokens and the contact-discovery index.

Every method runs under the store's mutex, so each is one function of the store
and of what it takes from outside: a clock reading in nanoseconds and the random
identifiers.  A method that reads the clock more than once is given one reading.
`Outcome.persists` says whether the method calls `persistLocked`, which every
method does last.  Bearer tokens are stateless; what a token says is kept
(`Token`), its signature is not.
-/

namespace Hwfa.DiscoveryStore

open Hwfa.Maps

/-- `types.go::OneTimePreKey`. -/
structure OneTimePreKey where
  id : Int64
  publicB64 : String
  deriving DecidableEq, Repr

/-- `types.go::PublishedKeyBundle`. -/
structure PublishedKeyBundle where
  registrationID : Int64
  deviceID : Int64
  identityKeyB64 : String
  signedPreKeyID : Int64
  signedPreKeyPublicB64 : String
  signedPreKeySignatureB64 : String
  kyberPreKeyID : Int64
  kyberPreKeyPublicB64 : String
  kyberPreKeySignatureB64 : String
  oneTimePreKeyID : Option Int64 := none
  oneTimePreKeyPublicB64 : Option String := none
  deriving DecidableEq, Repr

/-- `types.go::RegisterRequest`. -/
structure RegisterRequest where
  phoneNumber : String
  deviceID : Int64
  registrationID : Int64
  identityKeyB64 : String
  signedPreKeyID : Int64
  signedPreKeyPublicB64 : String
  signedPreKeySignatureB64 : String
  kyberPreKeyID : Int64
  kyberPreKeyPublicB64 : String
  kyberPreKeySignatureB64 : String
  oneTimePreKeys : List OneTimePreKey
  deriving DecidableEq, Repr

/-- `types.go::IntersectMatch`. -/
structure IntersectMatch where
  phoneHashB64 : String
  userID : String
  deriving DecidableEq, Repr

/-- `types.go::DeviceInfo`. -/
structure DeviceInfo where
  userID : String
  deviceID : Int64
  primary : Bool
  deriving DecidableEq, Repr

/-- `store.go::account`, and `persistedAccount`, which has the same fields. -/
structure Account where
  userID : String
  accountID : String
  phoneHashB64 : String
  deviceID : Int64
  registrationID : Int64
  identityKeyB64 : String
  signedPreKeyID : Int64
  signedPreKeyPublicB64 : String
  signedPreKeySignatureB64 : String
  kyberPreKeyID : Int64
  kyberPreKeyPublicB64 : String
  kyberPreKeySignatureB64 : String
  oneTime : List OneTimePreKey
  verified : Bool
  deriving DecidableEq, Repr

/-- `store.go::pendingOTP`. -/
structure PendingOTP where
  code : String
  expiresAt : Int
  attempts : Nat := 0

/-- `store.go::linkToken`. -/
structure LinkToken where
  accountID : String
  expiresAt : Int

/-- `store.go::rateWindow`. -/
structure RateWindow where
  windowStart : Int
  used : Nat := 0

/-- What a token signed by `authtoken.Sign` says. -/
structure Token where
  uid : String
  kind : String
  expiresAt : Int
  deriving DecidableEq, Repr

/-- `store.go::Store` without its mutex and signing secret. -/
structure Store where
  path : String
  salt : List UInt8
  accounts : FinMap String Account := ∅
  pending : FinMap String PendingOTP := ∅
  lastRegister : FinMap String Int := ∅
  intersectUse : FinMap String RateWindow := ∅
  linkTokens : FinMap String LinkToken := ∅

/-- `store.go::persistedState`. -/
structure PersistedState where
  saltB64 : String
  accounts : List Account

/-- What a method leaves, whether it persists it, and what it returns. -/
structure Outcome (ρ : Type) where
  store : Store
  persists : Bool
  result : ρ

def second : Int := 1000000000
def accessTTL : Int := 15 * 60 * second
def refreshTTL : Int := 30 * 24 * 3600 * second
def linkTTL : Int := 5 * 60 * second
def otpTTL : Int := 10 * 60 * second
def maxOTPAttempts : Nat := 5
def registerCooldown : Int := 30 * second
def intersectWindow : Int := 3600 * second
def intersectBudget : Nat := 5000

def issueTokens (uid : String) (now : Int) : Token × Token :=
  (⟨uid, "access", now + accessTTL⟩, ⟨uid, "refresh", now + refreshTTL⟩)

def Store.saltB64 (s : Store) : String := String.ofList (Base64.encode s.salt)

/-- The bytes a Go string is converted to. -/
def utf8 (text : String) : List UInt8 := text.toUTF8.toList

def hashPhone (salt : List UInt8) (phone : String) : String :=
  String.ofList (Base64.encode (Sha256.sha256 (salt ++ utf8 phone)))

/-- `Store.persistLocked`.  The accounts are written in some order of the map,
which reading them back does not depend on. -/
def Store.persistLocked (s : Store) (wrote : Bool) (disk : Option PersistedState) :
    Option PersistedState :=
  if s.path = "" then disk
  else if wrote then some ⟨s.saltB64, s.accounts.values⟩ else disk

/-- The account a persisted record is read back as. -/
def restored (p : Account) : Account :=
  { p with accountID := if p.accountID = "" then p.userID else p.accountID }

/-- `Store.load` into a store that `NewStore` has just given a fresh salt. -/
def Store.load (s : Store) (disk : Option PersistedState) : Store :=
  match disk with
  | none => s
  | some state =>
    match Base64.decode state.saltB64.toList with
    | none => s
    | some salt =>
      { s with
        salt := salt
        accounts := FinMap.ofRecords (·.userID) (state.accounts.map restored) }

/-- `NewPersistentStore`, or `NewStore` when no path is configured. -/
def boot (path : String) (freshSalt : List UInt8) (disk : Option PersistedState) : Store :=
  if path = "" then { path := path, salt := freshSalt }
  else { path := path, salt := freshSalt : Store }.load disk

/-- The record `register` stores. -/
def newAccount (userID phoneHash : String) (req : RegisterRequest) : Account where
  userID := userID
  accountID := userID
  phoneHashB64 := phoneHash
  deviceID := req.deviceID
  registrationID := req.registrationID
  identityKeyB64 := req.identityKeyB64
  signedPreKeyID := req.signedPreKeyID
  signedPreKeyPublicB64 := req.signedPreKeyPublicB64
  signedPreKeySignatureB64 := req.signedPreKeySignatureB64
  kyberPreKeyID := req.kyberPreKeyID
  kyberPreKeyPublicB64 := req.kyberPreKeyPublicB64
  kyberPreKeySignatureB64 := req.kyberPreKeySignatureB64
  oneTime := req.oneTimePreKeys
  verified := false

/-- `Store.register`; `userID` and `otp` are what `newUUID` and `newOTP` draw. -/
def Store.register (s : Store) (req : RegisterRequest) (userID otp : String) (now : Int) :
    Outcome (Option (String × String)) :=
  let phoneHash := hashPhone s.salt req.phoneNumber
  let throttled := (s.lastRegister.lookup phoneHash).any fun last => now - last < registerCooldown
  if throttled then ⟨s, false, none⟩
  else
    ⟨{ s with
        lastRegister := s.lastRegister.insert phoneHash now
        accounts := s.accounts.insert userID (newAccount userID phoneHash req)
        pending := s.pending.insert userID { code := otp, expiresAt := now + otpTTL } },
      true, some (userID, otp)⟩

/-- `Store.verify`. -/
def Store.verify (s : Store) (userID code : String) (now : Int) :
    Outcome (Option (Token × Token)) :=
  match s.pending.lookup userID with
  | none => ⟨s, false, none⟩
  | some p =>
    if p.expiresAt < now then ⟨{ s with pending := s.pending.erase userID }, false, none⟩
    else if p.code ≠ code then
      if maxOTPAttempts ≤ p.attempts + 1 then
        ⟨{ s with pending := s.pending.erase userID }, false, none⟩
      else
        ⟨{ s with pending := s.pending.insert userID { p with attempts := p.attempts + 1 } },
          false, none⟩
    else
      match s.accounts.lookup userID with
      | none => ⟨s, false, none⟩
      | some acct =>
        ⟨{ s with
            accounts := s.accounts.insert userID { acct with verified := true }
            pending := s.pending.erase userID },
          true, some (issueTokens userID now)⟩

/-- A time in whole seconds. -/
def unix (time : Int) : Int := time / second

/-- `authtoken.Verify` of a token that was signed. -/
def Token.verify (t : Token) (now : Int) : Option (String × String) :=
  if unix t.expiresAt ≤ unix now then none else some (t.uid, t.kind)

/-- `Store.userForToken`. -/
def userForToken (token : Token) (now : Int) : Option String :=
  match token.verify now with
  | some (uid, kind) => if kind = "access" then some uid else none
  | none => none

/-- `Store.refresh`, which changes nothing. -/
def Store.refresh (s : Store) (refreshToken : Token) (now : Int) : Option (Token × Token) :=
  match refreshToken.verify now with
  | none => none
  | some (uid, kind) =>
    if kind ≠ "refresh" then none
    else
      match s.accounts.lookup uid with
      | none => none
      | some acct => if acct.verified then some (issueTokens uid now) else none

/-- `Store.accountIDFor`. -/
def Store.accountIDFor (s : Store) (userID : String) : Option String :=
  match s.accounts.lookup userID with
  | none => none
  | some a => if a.verified then some a.accountID else none

/-- `Store.createLinkToken`; `token` is what `newToken` draws. -/
def Store.createLinkToken (s : Store) (accountID token : String) (now : Int) : Store :=
  { s with
    linkTokens := s.linkTokens.insert token { accountID := accountID, expiresAt := now + linkTTL } }

/-- `Store.linkDevice`. -/
def Store.linkDevice (s : Store) (token : String) (req : RegisterRequest) (userID : String)
    (now : Int) : Outcome (Option (String × String × Token × Token)) :=
  match s.linkTokens.lookup token with
  | none => ⟨s, false, none⟩
  | some lt =>
    if lt.expiresAt < now then ⟨{ s with linkTokens := s.linkTokens.erase token }, false, none⟩
    else
      match s.accounts.lookup lt.accountID with
      | none => ⟨s, false, none⟩
      | some _ =>
        let device := { newAccount userID "" req with
          accountID := lt.accountID
          deviceID := if req.deviceID = 0 then 1 else req.deviceID
          verified := true }
        let (access, refresh) := issueTokens userID now
        ⟨{ s with
            accounts := s.accounts.insert userID device
            linkTokens := s.linkTokens.erase token },
          true, some (userID, lt.accountID, access, refresh)⟩

/-- `Store.deleteAccount`. -/
def Store.deleteAccount (s : Store) (userID : String) : Outcome Bool :=
  match s.accounts.lookup userID with
  | none => ⟨s, false, false⟩
  | some caller =>
    let doomed := s.accounts.keep fun _ a => a.accountID = caller.accountID
    ⟨{ s with
        lastRegister := doomed.values.foldl (fun m a => m.erase a.phoneHashB64) s.lastRegister
        pending := doomed.keys.foldl (fun m id => m.erase id) s.pending
        accounts := s.accounts.keep fun _ a => a.accountID ≠ caller.accountID },
      true, true⟩

/-- `Store.removeDevice`. -/
def Store.removeDevice (s : Store) (callerUserID targetUserID : String) : Outcome Bool :=
  match s.accounts.lookup callerUserID, s.accounts.lookup targetUserID with
  | some caller, some target =>
    if target.accountID ≠ caller.accountID then ⟨s, false, false⟩
    else if targetUserID = target.accountID then ⟨s, false, false⟩
    else
      ⟨{ s with
          pending := s.pending.erase targetUserID
          accounts := s.accounts.erase targetUserID },
        true, true⟩
  | _, _ => ⟨s, false, false⟩

/-- The reusable part of an account's bundle. -/
def longTermBundle (acct : Account) : PublishedKeyBundle where
  registrationID := acct.registrationID
  deviceID := acct.deviceID
  identityKeyB64 := acct.identityKeyB64
  signedPreKeyID := acct.signedPreKeyID
  signedPreKeyPublicB64 := acct.signedPreKeyPublicB64
  signedPreKeySignatureB64 := acct.signedPreKeySignatureB64
  kyberPreKeyID := acct.kyberPreKeyID
  kyberPreKeyPublicB64 := acct.kyberPreKeyPublicB64
  kyberPreKeySignatureB64 := acct.kyberPreKeySignatureB64

/-- `Store.bundleFor`. -/
def Store.bundleFor (s : Store) (userID : String) : Outcome (Option PublishedKeyBundle) :=
  match s.accounts.lookup userID with
  | none => ⟨s, false, none⟩
  | some acct =>
    if acct.verified then
      match acct.oneTime with
      | [] => ⟨s, false, some (longTermBundle acct)⟩
      | otk :: rest =>
        ⟨{ s with accounts := s.accounts.insert userID { acct with oneTime := rest } }, true,
          some { longTermBundle acct with
            oneTimePreKeyID := some otk.id
            oneTimePreKeyPublicB64 := some otk.publicB64 }⟩
    else ⟨s, false, none⟩

/-- `Store.poolSize`. -/
def Store.poolSize (s : Store) (userID : String) : Option Nat :=
  match s.accounts.lookup userID with
  | none => none
  | some acct => some acct.oneTime.length

/-- `Store.addOneTime`. -/
def Store.addOneTime (s : Store) (userID : String) (keys : List OneTimePreKey) :
    Outcome (Option Nat) :=
  match s.accounts.lookup userID with
  | none => ⟨s, false, none⟩
  | some acct =>
    let oneTime := acct.oneTime ++ keys
    ⟨{ s with accounts := s.accounts.insert userID { acct with oneTime := oneTime } }, true,
      some oneTime.length⟩

/-- The window `allowIntersect` charges: the last one, or a new one once it has elapsed. -/
def chargedWindow (last : Option RateWindow) (now : Int) : RateWindow :=
  match last with
  | some w => if intersectWindow ≤ now - w.windowStart then { windowStart := now } else w
  | none => { windowStart := now }

/-- `Store.allowIntersect`. -/
def Store.allowIntersect (s : Store) (uid : String) (n : Nat) (now : Int) : Outcome Bool :=
  let w := chargedWindow (s.intersectUse.lookup uid) now
  if intersectBudget < w.used + n then
    ⟨{ s with intersectUse := s.intersectUse.insert uid w }, false, false⟩
  else
    ⟨{ s with intersectUse := s.intersectUse.insert uid { w with used := w.used + n } },
      false, true⟩

/-- The index `intersect` builds from the accounts in iteration order. -/
def byHash (order : List Account) : FinMap String String :=
  order.foldl (fun m acct => if acct.verified then m.insert acct.phoneHashB64 acct.userID else m) ∅

/-- The loop of `intersect` over the submitted hashes. -/
def intersectLoop (index : FinMap String String) : List String → List String → List IntersectMatch
  | [], _ => []
  | h :: rest, seen =>
    if h ∈ seen then intersectLoop index rest seen
    else
      match index.lookup h with
      | some uid => ⟨h, uid⟩ :: intersectLoop index rest (h :: seen)
      | none => intersectLoop index rest (h :: seen)

/-- The orders in which Go may iterate over the accounts. -/
def Iterates (s : Store) (order : List Account) : Prop := order.Perm s.accounts.values

/-- `Store.intersect`, where the map is iterated in the given order. -/
def intersect (order : List Account) (hashes : List String) : List IntersectMatch :=
  intersectLoop (byHash order) hashes []

/-- `Store.devicesFor`, where the map is iterated in the given order. -/
def devicesFor (order : List Account) (accountID : String) : List String :=
  (order.filter fun a => a.verified && a.accountID = accountID).map (·.userID)

/-- The orders in which Go may iterate over the accounts with their keys. -/
def Ranges (s : Store) (order : List (String × Account)) : Prop :=
  order.Perm (s.accounts.entries.map fun entry => (entry.1, entry.2))

/-- `Store.accountDevices`, where the map is iterated in the given order.  The nil
slice of an unknown caller is the empty list, as is the one of a caller whose
account has no verified device. -/
def Store.accountDevices (s : Store) (order : List (String × Account)) (userID : String) :
    List DeviceInfo :=
  match s.accounts.lookup userID with
  | none => []
  | some caller =>
    (order.filter fun entry => entry.2.verified && entry.2.accountID = caller.accountID).map
      fun entry =>
        { userID := entry.1, deviceID := entry.2.deviceID, primary := entry.1 = entry.2.accountID }

end Hwfa.DiscoveryStore
