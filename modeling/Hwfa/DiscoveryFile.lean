import Hwfa.GoStructs
import Hwfa.DiscoveryRestart

/-!
The file of Discovery (`persistLocked`, `load` and `NewPersistentStore` of
`backend/discovery/store.go`), byte by byte.

The accounts come in whatever order the map gives them, and a device without one-time keys
shows `null` or an empty list, as its slice is nil or not.  None of this can be told from
what is read back.
-/

namespace Hwfa.DiscoveryFile

open Hwfa.GoJson (Bytes)
open Hwfa.GoStructs Hwfa.JsonWriters
open Hwfa.Machines Hwfa.Maps Hwfa.DiscoveryStore Hwfa.DiscoveryService Hwfa.DiscoveryRecords
open Hwfa.DiscoveryRestart (PersistedAccount Alike)

/-! ### The bytes -/

def oneTimePreKeyFields : List (StructField OneTimePreKey) := [
  field "id" int (·.id) fun k id => { k with id },
  field "publicB64" string (·.publicB64) fun k publicB64 => { k with publicB64 }]

def oneTimePreKey : Codec OneTimePreKey := struct ⟨0, ""⟩ oneTimePreKeyFields

/-- `store.go::persistedAccount`, of which the slice may be nil. -/
structure Filed where
  userID : String := ""
  accountID : String := ""
  phoneHashB64 : String := ""
  deviceID : Int64 := 0
  registrationID : Int64 := 0
  identityKeyB64 : String := ""
  signedPreKeyID : Int64 := 0
  signedPreKeyPublicB64 : String := ""
  signedPreKeySignatureB64 : String := ""
  kyberPreKeyID : Int64 := 0
  kyberPreKeyPublicB64 : String := ""
  kyberPreKeySignatureB64 : String := ""
  oneTime : Option (List OneTimePreKey) := none
  verified : Bool := false

def filedFields : List (StructField Filed) := [
  field "userId" string (·.userID) fun f userID => { f with userID },
  omitempty "accountId" string (·.accountID) fun f accountID => { f with accountID },
  field "phoneHashB64" string (·.phoneHashB64) fun f phoneHashB64 => { f with phoneHashB64 },
  field "deviceId" int (·.deviceID) fun f deviceID => { f with deviceID },
  field "registrationId" int (·.registrationID) fun f registrationID => { f with registrationID },
  field "identityKeyB64" string (·.identityKeyB64) fun f identityKeyB64 => { f with identityKeyB64 },
  field "signedPreKeyId" int (·.signedPreKeyID) fun f signedPreKeyID => { f with signedPreKeyID },
  field "signedPreKeyPublicB64" string (·.signedPreKeyPublicB64)
    fun f signedPreKeyPublicB64 => { f with signedPreKeyPublicB64 },
  field "signedPreKeySignatureB64" string (·.signedPreKeySignatureB64)
    fun f signedPreKeySignatureB64 => { f with signedPreKeySignatureB64 },
  field "kyberPreKeyId" int (·.kyberPreKeyID) fun f kyberPreKeyID => { f with kyberPreKeyID },
  field "kyberPreKeyPublicB64" string (·.kyberPreKeyPublicB64)
    fun f kyberPreKeyPublicB64 => { f with kyberPreKeyPublicB64 },
  field "kyberPreKeySignatureB64" string (·.kyberPreKeySignatureB64)
    fun f kyberPreKeySignatureB64 => { f with kyberPreKeySignatureB64 },
  field "oneTime" (sliceOrNil oneTimePreKey) (·.oneTime) fun f oneTime => { f with oneTime },
  field "verified" boolean (·.verified) fun f verified => { f with verified }]

def filedAccount : Codec Filed := struct {} filedFields

/-- `store.go::persistedState`. -/
structure State where
  saltB64 : String
  accounts : List Filed

def stateFields : List (StructField State) := [
  field "saltB64" string (·.saltB64) fun s saltB64 => { s with saltB64 },
  field "accounts" (slice filedAccount) (·.accounts) fun s accounts => { s with accounts }]

def persistedState : Codec State := struct ⟨"", []⟩ stateFields

/-- What `persistLocked` writes. -/
def persisted (state : State) : Bytes := marshalIndent (persistedState.encode state)

/-- The record that is written for an account; `isNil` is whether its slice is nil when it
has no elements. -/
def filed (a : Account) (isNil : Bool) : Filed :=
  let p := DiscoveryRestart.persistedAccount a
  { userID := p.userID, accountID := p.accountID, phoneHashB64 := p.phoneHashB64,
    deviceID := p.deviceID, registrationID := p.registrationID, identityKeyB64 := p.identityKeyB64,
    signedPreKeyID := p.signedPreKeyID, signedPreKeyPublicB64 := p.signedPreKeyPublicB64,
    signedPreKeySignatureB64 := p.signedPreKeySignatureB64, kyberPreKeyID := p.kyberPreKeyID,
    kyberPreKeyPublicB64 := p.kyberPreKeyPublicB64,
    kyberPreKeySignatureB64 := p.kyberPreKeySignatureB64,
    oneTime := if p.oneTime = [] ∧ isNil then none else some p.oneTime, verified := p.verified }

/-- The record that `load` reads. -/
def Filed.record (f : Filed) : PersistedAccount where
  userID := f.userID
  accountID := f.accountID
  phoneHashB64 := f.phoneHashB64
  deviceID := f.deviceID
  registrationID := f.registrationID
  identityKeyB64 := f.identityKeyB64
  signedPreKeyID := f.signedPreKeyID
  signedPreKeyPublicB64 := f.signedPreKeyPublicB64
  signedPreKeySignatureB64 := f.signedPreKeySignatureB64
  kyberPreKeyID := f.kyberPreKeyID
  kyberPreKeyPublicB64 := f.kyberPreKeyPublicB64
  kyberPreKeySignatureB64 := f.kyberPreKeySignatureB64
  oneTime := f.oneTime.getD []
  verified := f.verified

/-- `Store.load` of the bytes of a file. -/
def Store.loadBytes (s : Store) (data : Bytes) : Store :=
  match persistedState.unmarshal data with
  | none => s
  | some state =>
    match Base64.decode state.saltB64.toList with
    | none => s
    | some salt =>
      { s with
        salt := salt
        accounts := FinMap.ofRecords (·.userID) (state.accounts.map fun f => f.record.account) }

/-- `NewPersistentStore` over the bytes of a file, or `NewStore` when no path is configured. -/
def bootBytes (path : String) (freshSalt : List UInt8) (file : Option Bytes) : Store :=
  if path = "" then { path := path, salt := freshSalt }
  else
    match file with
    | none => { path := path, salt := freshSalt }
    | some data => Store.loadBytes { path := path, salt := freshSalt } data

/-! ### Reading back -/

theorem lawful_oneTimePreKey : oneTimePreKey.Lawful := by
  intro k
  apply keeps_struct
  · decide
  · exact .cons (takes_field (lawful_int _) rfl) <| .cons (takes_field (lawful_string _) rfl) <| .nil _

theorem lawful_filedAccount : filedAccount.Lawful := by
  intro f
  have keys : (sliceOrNil oneTimePreKey).Keeps f.oneTime :=
    keeps_sliceOrNil fun _ _ k _ => lawful_oneTimePreKey k
  apply keeps_struct
  · decide
  · exact .cons (takes_field (lawful_string _) rfl) <|
      .cons (takes_omitempty (lawful_string _) rfl rfl) <|
      .cons (takes_field (lawful_string _) rfl) <| .cons (takes_field (lawful_int _) rfl) <|
      .cons (takes_field (lawful_int _) rfl) <| .cons (takes_field (lawful_string _) rfl) <|
      .cons (takes_field (lawful_int _) rfl) <| .cons (takes_field (lawful_string _) rfl) <|
      .cons (takes_field (lawful_string _) rfl) <| .cons (takes_field (lawful_int _) rfl) <|
      .cons (takes_field (lawful_string _) rfl) <| .cons (takes_field (lawful_string _) rfl) <|
      .cons (takes_field keys rfl) <| .cons (takes_field (lawful_boolean _) rfl) <| .nil _

theorem lawful_persistedState : persistedState.Lawful := by
  intro state
  apply keeps_struct
  · decide
  · exact .cons (takes_field (lawful_string _) rfl) <|
      .cons (takes_field (lawful_slice lawful_filedAccount _) rfl) <| .nil _

theorem plain_oneTimePreKey : oneTimePreKey.Plain := by
  apply plain_struct
  simp only [oneTimePreKeyFields, List.forall_mem_cons]
  exact ⟨plain_field plain_int, plain_field plain_string, List.forall_mem_nil _⟩

theorem plain_filedAccount : filedAccount.Plain := by
  apply plain_struct
  simp only [filedFields, List.forall_mem_cons]
  exact ⟨plain_field plain_string, plain_omitempty plain_string, plain_field plain_string,
    plain_field plain_int, plain_field plain_int, plain_field plain_string, plain_field plain_int,
    plain_field plain_string, plain_field plain_string, plain_field plain_int, plain_field plain_string,
    plain_field plain_string, plain_field (plain_sliceOrNil plain_oneTimePreKey),
    plain_field plain_boolean, List.forall_mem_nil _⟩

theorem plain_persistedState : persistedState.Plain := by
  apply plain_struct
  simp only [stateFields, List.forall_mem_cons]
  exact ⟨plain_field plain_string, plain_field (plain_slice plain_filedAccount), List.forall_mem_nil _⟩

theorem within_oneTimePreKey : oneTimePreKey.Within 1 := by
  apply within_struct
  simp only [oneTimePreKeyFields, List.forall_mem_cons]
  exact ⟨within_field (within_int 0), within_field (within_string 0), List.forall_mem_nil _⟩

theorem within_filedAccount : filedAccount.Within 3 := by
  have text (name : String) (get : Filed → String) (set : Filed → String → Filed) :
      (field name string get set).Within 2 := within_field (within_string 2)
  have number (name : String) (get : Filed → Int64) (set : Filed → Int64 → Filed) :
      (field name int get set).Within 2 := within_field (within_int 2)
  apply within_struct
  simp only [filedFields, List.forall_mem_cons]
  exact ⟨text _ _ _, within_omitempty (within_string 2), text _ _ _, number _ _ _, number _ _ _,
    text _ _ _, number _ _ _, text _ _ _, text _ _ _, number _ _ _, text _ _ _, text _ _ _,
    within_field (within_sliceOrNil within_oneTimePreKey), within_field (within_boolean 2),
    List.forall_mem_nil _⟩

theorem within_persistedState : persistedState.Within 5 := by
  apply within_struct
  simp only [stateFields, List.forall_mem_cons]
  exact ⟨within_field (within_string 4), within_field (within_slice within_filedAccount),
    List.forall_mem_nil _⟩

/-- The bytes of a state give it back. -/
theorem unmarshal_persisted (state : State) :
    persistedState.unmarshal (persisted state) = some state :=
  unmarshal_marshalWith isBlank_indented plain_persistedState within_persistedState (by decide)
    (lawful_persistedState state)

/-- A slice that is nil is read as one that is empty. -/
theorem record_filed (a : Account) (isNil : Bool) : (filed a isNil).record.account = restored a := by
  have keys : (filed a isNil).record.oneTime = a.oneTime := by
    unfold Filed.record filed DiscoveryRestart.persistedAccount
    dsimp only
    split
    · next empty => exact empty.1.symm
    · rfl
  unfold PersistedAccount.account
  rw [keys]
  rfl

/-! ### Every file of every run -/

/-- The bytes that may be on the file: the accounts are in some order, and each is with or
without a slice. -/
inductive IsFile : Option PersistedState → Option Bytes → Prop where
  | missing : IsFile none none
  | written {p : PersistedState} {rows : List (Account × Bool)}
      (order : (rows.map Prod.fst).Perm p.accounts) :
    IsFile (some p) (some (persisted ⟨p.saltB64, rows.map fun row => filed row.1 row.2⟩))

variable {w : Service} {file : Option Bytes}

/-- No run brings two records with one name into the file. -/
theorem reachable_distinct (reached : service.Reachable w) (p : PersistedState)
    (written : w.disk = some p) : ∀ a ∈ p.accounts, ∀ b ∈ p.accounts, a.userID = b.userID → a = b := by
  have kept : Kept (fun _ _ _ => True) w :=
    reached.invariant _ (fun _ started => kept_start started) fun _ _ _ kept _ moved =>
      kept.step moved (fun _ _ _ _ => trivial) (fun _ _ _ _ _ _ _ => trivial)
        (fun _ _ _ _ _ _ _ => trivial) (fun _ _ _ _ _ _ _ _ _ _ _ _ => trivial)
        (fun _ _ _ _ _ _ _ _ _ _ _ _ => trivial)
  exact kept.distinct p written

/-- The rows of the file, as they are read, are the accounts in another order. -/
theorem read_rows (rows : List (Account × Bool)) :
    (rows.map fun row => filed row.1 row.2).map (fun f => f.record.account) =
      (rows.map Prod.fst).map restored := by
  rw [List.map_map, List.map_map]
  exact List.map_congr_left fun row _ => record_filed row.1 row.2

/-- **The file gives the store back.** In every state of every run of Discovery, failed
writes and restarts included, whatever bytes may be on the file for what was last written: a
store that boots from these bytes has the path, the salt and, for every user id, the account
of the one that boots from the state itself. -/
theorem file_gives_the_store_back (reached : service.Reachable w) (same : IsFile w.disk file)
    (path : String) (freshSalt : List UInt8) :
    Alike (boot path freshSalt w.disk) (bootBytes path freshSalt file) := by
  have distinct := reachable_distinct reached
  generalize w.disk = disk at same distinct
  cases same with
  | missing => exact ⟨rfl, rfl, fun _ => rfl⟩
  | @written p rows order =>
    have read := unmarshal_persisted ⟨p.saltB64, rows.map fun row => filed row.1 row.2⟩
    unfold boot bootBytes
    split
    · exact ⟨rfl, rfl, fun _ => rfl⟩
    simp only [Store.loadBytes, read, Store.load, read_rows]
    cases Base64.decode p.saltB64.toList with
    | none => exact ⟨rfl, rfl, fun _ => rfl⟩
    | some salt =>
      refine ⟨rfl, rfl, fun userID => ?_⟩
      refine FinMap.lookup_ofRecords_perm (order.map restored) ?_ userID
      intro x member y member' named
      obtain ⟨a, inside, rfl⟩ := List.mem_map.mp member
      obtain ⟨b, inside', rfl⟩ := List.mem_map.mp member'
      rw [distinct p rfl b inside' a inside named]

/-- The phone and the tablet are on the file in the other order. -/
theorem phone_and_tablet_are_on_the_file : ∃ w p, service.Reachable w ∧ w.disk = some p ∧
    p.accounts.length = 2 ∧
    IsFile w.disk (some (persisted ⟨p.saltB64, p.accounts.reverse.map fun a => filed a true⟩)) ∧
    Alike (boot "discovery.json" [3, 4] w.disk) (bootBytes "discovery.json" [3, 4]
      (some (persisted ⟨p.saltB64, p.accounts.reverse.map fun a => filed a true⟩))) := by
  have observed : (service.run (started "discovery.json" [1, 2])
      DiscoveryRestart.phoneAndTablet).bind (fun w => w.disk.map fun p => p.accounts.length) =
      some 2 := by decide +kernel
  obtain ⟨w, ran, seen⟩ := Option.bind_eq_some_iff.mp observed
  obtain ⟨p, disk, two⟩ := Option.map_eq_some_iff.mp seen
  have reached : service.Reachable w := Machine.reachable_of_run ⟨_, _, rfl⟩ _ ran
  have rows : ((p.accounts.reverse.map fun a => (a, true)).map Prod.fst).Perm p.accounts := by
    rw [List.map_map]
    exact (List.map_id' p.accounts.reverse).symm ▸ p.accounts.reverse_perm
  have same : IsFile w.disk
      (some (persisted ⟨p.saltB64, p.accounts.reverse.map fun a => filed a true⟩)) := by
    have written := IsFile.written rows
    rw [List.map_map] at written
    rw [disk]
    exact written
  exact ⟨w, p, reached, disk, two, same, file_gives_the_store_back reached same _ _⟩

end Hwfa.DiscoveryFile
