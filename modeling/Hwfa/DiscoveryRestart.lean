import Hwfa.DiscoveryCredentials

/-!
What a Discovery service that is restarted knows.

Every method that changes an account persists it last, so after the first
registration the file always holds the salt and the accounts of the store
(`Recorded`).  The file is written from one list of fields and read with
another; `account_persistedAccount` is about these two lists.  `Alike` says that
two stores differ only in what is not persisted, and what follows for the
methods that read accounts.
-/

namespace Hwfa.DiscoveryRestart

open Hwfa.Machines Hwfa.Maps Hwfa.DiscoveryStore Hwfa.DiscoveryService Hwfa.DiscoveryRecords
  Hwfa.DiscoveryCredentials

/-! ## The record in the file -/

/-- `store.go::persistedAccount`. -/
structure PersistedAccount where
  userID : String
  accountID : String
  phoneHashB64 : String
  deviceID : Int64
  registrationID : Int64
  identityKeyB64 : String
  signedPreKeyID : Int64
  signedPreKeyPublicB64 : String
  signedPreKeySignatureB64 : String
  kyberPreKeyID : Int64
  kyberPreKeyPublicB64 : String
  kyberPreKeySignatureB64 : String
  oneTime : List OneTimePreKey
  verified : Bool

/-- The record `persistLocked` writes for an account. -/
def persistedAccount (a : Account) : PersistedAccount where
  userID := a.userID
  accountID := a.accountID
  phoneHashB64 := a.phoneHashB64
  deviceID := a.deviceID
  registrationID := a.registrationID
  identityKeyB64 := a.identityKeyB64
  signedPreKeyID := a.signedPreKeyID
  signedPreKeyPublicB64 := a.signedPreKeyPublicB64
  signedPreKeySignatureB64 := a.signedPreKeySignatureB64
  kyberPreKeyID := a.kyberPreKeyID
  kyberPreKeyPublicB64 := a.kyberPreKeyPublicB64
  kyberPreKeySignatureB64 := a.kyberPreKeySignatureB64
  oneTime := a.oneTime
  verified := a.verified

/-- The account `load` makes of a record. -/
def PersistedAccount.account (p : PersistedAccount) : Account where
  userID := p.userID
  accountID := if p.accountID = "" then p.userID else p.accountID
  phoneHashB64 := p.phoneHashB64
  deviceID := p.deviceID
  registrationID := p.registrationID
  identityKeyB64 := p.identityKeyB64
  signedPreKeyID := p.signedPreKeyID
  signedPreKeyPublicB64 := p.signedPreKeyPublicB64
  signedPreKeySignatureB64 := p.signedPreKeySignatureB64
  kyberPreKeyID := p.kyberPreKeyID
  kyberPreKeyPublicB64 := p.kyberPreKeyPublicB64
  kyberPreKeySignatureB64 := p.kyberPreKeySignatureB64
  oneTime := p.oneTime
  verified := p.verified

/-- Written and read back, an account is what the store's model takes it for. -/
theorem account_persistedAccount (a : Account) : (persistedAccount a).account = restored a := rfl

/-- Only the account of records without one is made up. -/
theorem restored_of_named {a : Account} (named : a.accountID ≠ "") : restored a = a := by
  unfold restored
  rw [if_neg named]

/-! ## Stores that differ in what is not persisted -/

/-- The same path, salt and account records. -/
structure Alike (s t : Store) : Prop where
  path : t.path = s.path
  salt : t.salt = s.salt
  accounts : ∀ userID, t.accounts.lookup userID = s.accounts.lookup userID

variable {s t : Store}

theorem Alike.symm (alike : Alike s t) : Alike t s :=
  ⟨alike.path.symm, alike.salt.symm, fun userID => (alike.accounts userID).symm⟩

theorem Alike.trans {u : Store} (alike : Alike s t) (alike' : Alike t u) : Alike s u :=
  ⟨alike'.path.trans alike.path, alike'.salt.trans alike.salt,
    fun userID => (alike'.accounts userID).trans (alike.accounts userID)⟩

theorem Alike.bundleFor (alike : Alike s t) (userID : String) :
    (t.bundleFor userID).result = (s.bundleFor userID).result ∧
      Alike (s.bundleFor userID).store (t.bundleFor userID).store := by
  unfold Store.bundleFor
  rw [alike.accounts]
  split
  · exact ⟨rfl, alike⟩
  · split
    · split
      · exact ⟨rfl, alike⟩
      · refine ⟨rfl, alike.path, alike.salt, ?_⟩
        intro k
        simp only [FinMap.lookup_insert_apply, alike.accounts]
    · exact ⟨rfl, alike⟩

theorem Alike.poolSize (alike : Alike s t) (userID : String) :
    t.poolSize userID = s.poolSize userID := by
  unfold Store.poolSize
  rw [alike.accounts]

theorem Alike.accountIDFor (alike : Alike s t) (userID : String) :
    t.accountIDFor userID = s.accountIDFor userID := by
  unfold Store.accountIDFor
  rw [alike.accounts]

theorem Alike.refresh (alike : Alike s t) (token : Token) (now : Int) :
    t.refresh token now = s.refresh token now := by
  unfold Store.refresh
  simp only [alike.accounts]

theorem Alike.hashPhone (alike : Alike s t) (phone : String) :
    DiscoveryStore.hashPhone t.salt phone = DiscoveryStore.hashPhone s.salt phone := by
  rw [alike.salt]

/-- `devicesFor` may answer so. -/
def DevicesFor (s : Store) (accountID : String) (devices : List String) : Prop :=
  ∃ order, Iterates s order ∧ devicesFor order accountID = devices

/-- `accountDevices` may answer so. -/
def AccountDevices (s : Store) (userID : String) (devices : List DeviceInfo) : Prop :=
  ∃ order, Ranges s order ∧ s.accountDevices order userID = devices

/-- The two may iterate over their accounts in the same orders. -/
theorem Alike.devicesFor (alike : Alike s t) (accountID : String) (devices : List String) :
    DevicesFor t accountID devices ↔ DevicesFor s accountID devices := by
  have same := FinMap.values_perm alike.accounts
  constructor
  · rintro ⟨order, iterates, answer⟩
    exact ⟨order, iterates.trans same, answer⟩
  · rintro ⟨order, iterates, answer⟩
    exact ⟨order, iterates.trans same.symm, answer⟩

theorem Alike.accountDevices (alike : Alike s t) (userID : String) (devices : List DeviceInfo) :
    AccountDevices t userID devices ↔ AccountDevices s userID devices := by
  have same := (FinMap.entries_perm alike.accounts).map fun entry => (entry.1, entry.2)
  unfold AccountDevices Store.accountDevices
  rw [alike.accounts]
  constructor
  · rintro ⟨order, ranges, answer⟩
    exact ⟨order, ranges.trans same, answer⟩
  · rintro ⟨order, ranges, answer⟩
    exact ⟨order, ranges.trans same.symm, answer⟩

/-- Every question about accounts is answered alike. -/
structure AnswersAlike (s t : Store) : Prop where
  bundleFor : ∀ userID, (t.bundleFor userID).result = (s.bundleFor userID).result
  poolSize : ∀ userID, t.poolSize userID = s.poolSize userID
  devicesFor : ∀ accountID devices, DevicesFor t accountID devices ↔ DevicesFor s accountID devices
  accountIDFor : ∀ userID, t.accountIDFor userID = s.accountIDFor userID
  accountDevices : ∀ userID devices, AccountDevices t userID devices ↔ AccountDevices s userID devices
  refresh : ∀ token now, t.refresh token now = s.refresh token now
  hashPhone : ∀ phone, hashPhone t.salt phone = hashPhone s.salt phone

theorem Alike.answers (alike : Alike s t) : AnswersAlike s t where
  bundleFor userID := (alike.bundleFor userID).1
  poolSize := alike.poolSize
  devicesFor := alike.devicesFor
  accountIDFor := alike.accountIDFor
  accountDevices := alike.accountDevices
  refresh := alike.refresh
  hashPhone := alike.hashPhone

/-- A store whose records have names of their own is read back as it was written. -/
theorem alike_boot_persisted (persistent : s.path ≠ "")
    (keyed : ∀ k a, s.accounts.lookup k = some a → a.userID = k)
    (named : ∀ k a, s.accounts.lookup k = some a → a.accountID ≠ "") (freshSalt : List UInt8) :
    Alike s (boot s.path freshSalt (some ⟨s.saltB64, s.accounts.values⟩)) := by
  have unique := fun a member b member' => eq_of_userID_eq (a := a) (b := b) keyed member member'
  refine ⟨boot_path .., boot_salt persistent rfl freshSalt, ?_⟩
  intro k
  apply Option.ext
  intro a
  constructor
  · intro found
    obtain ⟨p, _, old, same, -, -, member, rfl, own⟩ := lookup_boot found
    cases same
    obtain ⟨j, before⟩ := FinMap.mem_values.mp member
    rw [restored_of_named (named j old before)] at own ⊢
    rw [← own, keyed j old before]
    exact before
  · intro found
    have member : a ∈ s.accounts.values := FinMap.mem_values.mpr ⟨k, found⟩
    have readBack := (lookup_boot_of_mem (p := ⟨s.saltB64, s.accounts.values⟩) freshSalt
      persistent rfl unique member).1
    rw [restored_of_named (named k a found), keyed k a found] at readBack
    exact readBack

/-! ## The file keeps up with the store -/

/-- Every write goes through, a restart can read the file, and the names drawn
are not empty. -/
def Written (_ : Service) : Action → Prop
  | .request r wrote => wrote = true ∧ ∀ userID ∈ draws r, userID ≠ ""
  | .restart _ readable => readable = true

instance (s : Service) : ∀ a, Decidable (Written s a)
  | .request r wrote => inferInstanceAs (Decidable (wrote = true ∧ ∀ userID ∈ draws r, userID ≠ ""))
  | .restart _ readable => inferInstanceAs (Decidable (readable = true))

/-- Devices and accounts have names. -/
def HasNames (_ : List Entry) (_ : List UInt8) (a : Account) : Prop :=
  a.userID ≠ "" ∧ a.accountID ≠ ""

/-- Somebody has been registered. -/
def registers : Entry → Bool
  | .registered .. => true
  | _ => false

/-- Once somebody has registered, a store started over the file is like the one
that runs. -/
def Recorded (s : Service) : Prop :=
  s.store.path ≠ "" → s.log.any registers = true →
    ∀ freshSalt, Alike s.store (boot s.store.path freshSalt s.disk)

variable {w w' : Service} {a : Action}

/-- Records keep their names, provided the ones drawn are not empty. -/
theorem step_hasNames (kept : Kept HasNames w) (written : Written w a)
    (moved : w.step a = some w') : Kept HasNames w' := by
  refine kept.step moved ?_ ?_ ?_ ?_ ?_
  · intro log salt b named
    rwa [restored_of_named named.2]
  · exact fun _ _ _ _ _ _ named => named
  · rintro r wrote k acct entry rfl stores
    obtain ⟨-, drawn⟩ := written
    cases stores with
    | register => exact ⟨drawn _ List.mem_cons_self, drawn _ List.mem_cons_self⟩
    | linkDevice primary =>
      obtain ⟨keyed, named, -⟩ := kept.memory _ _ primary
      rw [keyed] at named
      exact ⟨drawn _ List.mem_cons_self, named⟩
    | verify found =>
      have named := (kept.memory _ _ found).2
      exact named
    | bundleFor found =>
      have named := (kept.memory _ _ found).2
      exact named
    | addOneTime found =>
      have named := (kept.memory _ _ found).2
      exact named
  · exact fun _ _ _ _ _ _ _ _ _ _ _ named => named
  · exact fun _ _ _ _ _ _ _ _ _ _ _ named => named

theorem step_recorded (kept : Kept HasNames w) (recorded : Recorded w) (written : Written w a)
    (moved : w.step a = some w') : Recorded w' := by
  obtain ⟨memory, -, -, -⟩ := step_hasNames kept written moved
  have persisted (disk : w'.disk = w'.store.persistLocked true w.disk) : Recorded w' := by
    intro persistent _ freshSalt
    unfold Store.persistLocked at disk
    rw [if_neg persistent, if_pos rfl] at disk
    rw [disk]
    refine alike_boot_persisted persistent ?_ ?_ freshSalt
    · exact fun k b found => (memory k b found).1
    · exact fun k b found => (memory k b found).2.2
  cases step_moves moved with
  | idle accounts path salt disk log =>
    intro persistent registered freshSalt
    rw [path] at persistent
    rw [log] at registered
    obtain ⟨samePath, sameSalt, sameAccounts⟩ := recorded persistent registered freshSalt
    rw [path, disk]
    refine ⟨samePath.trans path.symm, sameSalt.trans salt.symm, ?_⟩
    rw [accounts]
    exact sameAccounts
  | serveReusable =>
    intro persistent registered
    refine recorded persistent ?_
    rw [List.any_append] at registered
    simpa [registers] using registered
  | store _ _ _ _ disk =>
    obtain ⟨rfl, -⟩ := written
    exact persisted disk
  | deleteAccount _ _ _ _ disk =>
    obtain ⟨rfl, -⟩ := written
    exact persisted disk
  | removeDevice _ _ _ _ _ disk =>
    obtain ⟨rfl, -⟩ := written
    exact persisted disk
  | restart =>
    next drawnSalt readable =>
    obtain rfl : readable = true := written
    intro persistent registered freshSalt
    dsimp only at persistent registered ⊢
    rw [boot_path] at persistent ⊢
    have read := recorded persistent registered
    exact (read drawnSalt).symm.trans (read freshSalt)

theorem reached_recorded (reached : service.Reached Written w) : Recorded w := by
  have names {w : Service} (reached : service.Reached Written w) : Kept HasNames w :=
    reached.invariant (Kept HasNames) (fun _ started => kept_start started)
      fun _ _ _ kept written moved => step_hasNames kept written moved
  refine reached.invariant_under Recorded (fun _ => names) ?_
    fun _ _ _ kept recorded written moved => step_recorded kept recorded written moved
  rintro w ⟨path, salt, rfl⟩ _ registered
  cases registered

/-- **A restart of the service is invisible.** In every run whose writes go
through, once somebody has registered, a store started over the file has the salt
and, for every user id, the account record of the running one, and answers every
question about accounts as the running one would. -/
theorem restart_is_invisible (reached : service.Reached Written w)
    (persistent : w.store.path ≠ "") (registered : w.log.any registers = true)
    (freshSalt : List UInt8) :
    Alike w.store (boot w.store.path freshSalt w.disk) ∧
      AnswersAlike w.store (boot w.store.path freshSalt w.disk) := by
  have alike := reached_recorded reached persistent registered freshSalt
  exact ⟨alike, alike.answers⟩

def twoKeys : List OneTimePreKey := [⟨1, "first"⟩, ⟨2, "second"⟩]

/-- A phone registers, links a tablet, and gives a one-time key away. -/
def phoneAndTablet : List Action :=
  [ .request (.register (deviceKeys "+15550100" twoKeys) "phone" "000000" 0) true,
    .request (.verify "phone" "000000" 0) true,
    .request (.createLinkToken "phone" "link" 0) true,
    .request (.linkDevice "link" (deviceKeys "" twoKeys) "tablet" 0) true,
    .request (.bundleFor "phone") true ]

/-- The service is restarted over what the phone and the tablet left. -/
theorem phone_and_tablet_survive : ∃ w, service.Reached Written w ∧
    (w.store.poolSize "phone" = some 1 ∧ w.store.accountIDFor "tablet" = some "phone") ∧
    Alike w.store (boot w.store.path [3, 4] w.disk) ∧
      AnswersAlike w.store (boot w.store.path [3, 4] w.disk) := by
  have observed : (service.checkedRun Written (started "discovery.json" [1, 2])
      phoneAndTablet).map (fun w => (w.store.path, w.log.any registers,
        w.store.poolSize "phone", w.store.accountIDFor "tablet")) =
      some ("discovery.json", true, some 1, some "phone") := by decide +kernel
  obtain ⟨w, ran, seen⟩ := Option.map_eq_some_iff.mp observed
  simp only [Prod.mk.injEq] at seen
  obtain ⟨path, registered, pool, account⟩ := seen
  have reached : service.Reached Written w := .checkedRun (.start ⟨_, _, rfl⟩) _ ran
  have persistent : w.store.path ≠ "" := by
    rw [path]
    decide
  exact ⟨w, reached, ⟨pool, account⟩, restart_is_invisible reached persistent registered [3, 4]⟩

end Hwfa.DiscoveryRestart
