import Hwfa.DiscoveryService

/-!
Invariants of account records.

A record lives in the store and, once persisted, in the file, where it outlasts
the store.  `Kept P` says that every record in either place has `P`, judged by
the history and by the salt kept next to it; `Kept.step` reduces its
preservation to what a request does to the record it stores and to the history
the other records are judged by.
-/

namespace Hwfa.DiscoveryRecords

open Hwfa.Machines Hwfa.Maps Hwfa.DiscoveryStore Hwfa.DiscoveryService

/-- Every account record, in the store and in the file, has `P`. -/
structure Kept (P : List Entry → List UInt8 → Account → Prop) (s : Service) : Prop where
  memory : ∀ k a, s.store.accounts.lookup k = some a → a.userID = k ∧ P s.log s.store.salt a
  disk : ∀ p, s.disk = some p → ∃ salt, p.saltB64 = String.ofList (Base64.encode salt) ∧
    ∀ a ∈ p.accounts, P s.log salt a
  distinct : ∀ p, s.disk = some p → ∀ a ∈ p.accounts, ∀ b ∈ p.accounts,
    a.userID = b.userID → a = b
  unwritten : s.store.path = "" → s.disk = none

variable {P : List Entry → List UInt8 → Account → Prop} {s s' : Service}

/-- A service that has just been set up keeps any property. -/
theorem kept_start (started : service.start s) : Kept P s := by
  obtain ⟨path, salt, rfl⟩ := started
  refine ⟨?_, ?_, ?_, fun _ => rfl⟩
  · intro k a found
    cases found
  · intro p written
    cases written
  · intro p written
    cases written

/-- The stored record takes the name it is stored under. -/
theorem stores_keyed {store : Store} {r : Request} {k : String} {acct : Account} {entry : Entry}
    (stores : Stores store r k acct entry)
    (keyed : ∀ j a, store.accounts.lookup j = some a → a.userID = j) : acct.userID = k := by
  cases stores with
  | register => rfl
  | linkDevice => rfl
  | verify found =>
    have own := keyed _ _ found
    exact own
  | bundleFor found =>
    have own := keyed _ _ found
    exact own
  | addOneTime found =>
    have own := keyed _ _ found
    exact own

/-- Records stored under their own names are told apart by them. -/
theorem eq_of_userID_eq {accounts : FinMap String Account} {a b : Account}
    (keyed : ∀ k a, accounts.lookup k = some a → a.userID = k) (member : a ∈ accounts.values)
    (member' : b ∈ accounts.values) (same : a.userID = b.userID) : a = b := by
  obtain ⟨k, found⟩ := FinMap.mem_values.mp member
  obtain ⟨j, found'⟩ := FinMap.mem_values.mp member'
  have key : k = j := (keyed k a found).symm.trans (same.trans (keyed j b found'))
  rw [key] at found
  exact Option.some.inj (found.symm.trans found')

/-- A step that has changed the accounts and tried to persist them. -/
theorem Kept.persisted (kept : Kept P s) {wrote : Bool}
    (memory : ∀ k a, s'.store.accounts.lookup k = some a →
      a.userID = k ∧ P s'.log s'.store.salt a)
    (file : wrote = false → ∀ p, s.disk = some p → ∀ salt,
      ∀ a ∈ p.accounts, P s.log salt a → P s'.log salt a)
    (path : s'.store.path = s.store.path)
    (disk : s'.disk = s'.store.persistLocked wrote s.disk) : Kept P s' := by
  unfold Store.persistLocked at disk
  split at disk
  · next inMemory =>
    have nothing : s'.disk = none := disk.trans (kept.unwritten (path ▸ inMemory))
    refine ⟨memory, ?_, ?_, fun _ => nothing⟩
    · intro p written
      rw [nothing] at written
      cases written
    · intro p written
      rw [nothing] at written
      cases written
  · next persistent =>
    split at disk
    · refine ⟨memory, ?_, ?_, fun inMemory => absurd inMemory persistent⟩
      · intro p written
        obtain rfl := Option.some.inj (disk.symm.trans written)
        refine ⟨s'.store.salt, rfl, ?_⟩
        intro a member
        obtain ⟨k, found⟩ := FinMap.mem_values.mp member
        exact (memory k a found).2
      · intro p written a member b member' same
        obtain rfl := Option.some.inj (disk.symm.trans written)
        exact eq_of_userID_eq (fun k a found => (memory k a found).1) member member' same
    · next failed =>
      refine ⟨memory, ?_, ?_, fun inMemory => absurd inMemory persistent⟩
      · intro p written
        obtain ⟨salt, encoded, records⟩ := kept.disk p (disk ▸ written)
        refine ⟨salt, encoded, ?_⟩
        intro a member
        exact file (Bool.eq_false_iff.mpr failed) p (disk ▸ written) salt a member
          (records a member)
      · intro p written
        exact kept.distinct p (disk ▸ written)

theorem boot_path (path : String) (salt : List UInt8) (disk : Option PersistedState) :
    (boot path salt disk).path = path := by
  unfold boot Store.load
  split
  · rfl
  · split
    · rfl
    · split <;> rfl

/-- A restart reads back records of the file, under the salt of the file. -/
theorem lookup_boot {path k : String} {freshSalt : List UInt8} {disk : Option PersistedState}
    {a : Account} (found : (boot path freshSalt disk).accounts.lookup k = some a) :
    ∃ p salt old, disk = some p ∧ Base64.decode p.saltB64.toList = some salt ∧
      (boot path freshSalt disk).salt = salt ∧ old ∈ p.accounts ∧ a = restored old ∧
      a.userID = k := by
  unfold boot Store.load at found ⊢
  split at found
  · cases found
  · next persistent =>
    split at found
    · cases found
    · next p =>
      split at found
      · cases found
      · next salt decoded =>
        obtain ⟨member, keyed⟩ := FinMap.lookup_ofRecords found
        obtain ⟨old, written, rfl⟩ := List.mem_map.mp member
        refine ⟨p, salt, old, rfl, decoded, ?_, written, rfl, keyed⟩
        rw [if_neg persistent]

theorem decode_saltB64 {p : PersistedState} {salt : List UInt8}
    (encoded : p.saltB64 = String.ofList (Base64.encode salt)) :
    Base64.decode p.saltB64.toList = some salt := by
  rw [encoded, String.toList_ofList, Base64.decode_encode]

/-- A restart takes the salt of a file that it can read. -/
theorem boot_salt {path : String} {p : PersistedState} {salt : List UInt8} (persistent : path ≠ "")
    (encoded : p.saltB64 = String.ofList (Base64.encode salt)) (freshSalt : List UInt8) :
    (boot path freshSalt (some p)).salt = salt := by
  unfold boot Store.load
  rw [if_neg persistent]
  simp only [decode_saltB64 encoded]

/-- A restart that can read the file finds every record of it. -/
theorem lookup_boot_of_mem {path : String} {salt : List UInt8} {p : PersistedState}
    {a : Account} (freshSalt : List UInt8) (persistent : path ≠ "")
    (encoded : p.saltB64 = String.ofList (Base64.encode salt))
    (distinct : ∀ a ∈ p.accounts, ∀ b ∈ p.accounts, a.userID = b.userID → a = b)
    (member : a ∈ p.accounts) :
    (boot path freshSalt (some p)).accounts.lookup a.userID = some (restored a) ∧
      (boot path freshSalt (some p)).salt = salt := by
  refine ⟨?_, boot_salt persistent encoded freshSalt⟩
  unfold boot Store.load
  rw [if_neg persistent]
  simp only [decode_saltB64 encoded]
  have inside : restored a ∈ p.accounts.map restored := List.mem_map_of_mem member
  have unique : ∀ y ∈ p.accounts.map restored, y.userID = (restored a).userID → y = restored a := by
    intro y written same
    obtain ⟨b, member', rfl⟩ := List.mem_map.mp written
    rw [distinct b member' a member same]
  have found := FinMap.lookup_ofRecords_of_unique inside unique
  exact found

/-- The rule for `Kept`.  `stored` is about the record a request stores, `others`
about the ones it leaves in the store, and `file` about those that stay in the
file when the write fails. -/
theorem Kept.step (kept : Kept P s) {a : Action} (moved : s.step a = some s')
    (restoring : ∀ log salt a, P log salt a → P log salt (restored a))
    (serving : ∀ userID acct salt a, s.store.accounts.lookup userID = some acct →
      acct.oneTime = [] → P s.log salt a →
      P (s.log ++ [.served userID (longTermBundle acct)]) salt a)
    (stored : ∀ r wrote k acct entry, a = .request r wrote → Stores s.store r k acct entry →
      P (s.log ++ [entry]) s.store.salt acct)
    (others : ∀ r wrote k acct entry, a = .request r wrote → Stores s.store r k acct entry →
      ∀ j b, s.store.accounts.lookup j = some b → j ≠ k → P s.log s.store.salt b →
        P (s.log ++ [entry]) s.store.salt b)
    (file : ∀ r k acct entry, a = .request r false → Stores s.store r k acct entry →
      ∀ p, s.disk = some p → ∀ salt, ∀ b ∈ p.accounts, P s.log salt b →
        P (s.log ++ [entry]) salt b) : Kept P s' := by
  cases step_moves moved with
  | idle accounts path salt disk log =>
    exact ⟨by rw [accounts, salt, log]; exact kept.memory, by rw [disk, log]; exact kept.disk,
      by rw [disk]; exact kept.distinct, by rw [path, disk]; exact kept.unwritten⟩
  | serveReusable found verified pool =>
    next userID acct wrote =>
    refine ⟨?_, ?_, kept.distinct, kept.unwritten⟩
    · intro k b inStore
      obtain ⟨keyed, has⟩ := kept.memory k b inStore
      exact ⟨keyed, serving userID acct _ b found pool has⟩
    · intro p written
      obtain ⟨salt, encoded, records⟩ := kept.disk p written
      exact ⟨salt, encoded, fun b member =>
        serving userID acct salt b found pool (records b member)⟩
  | store stores accounts path salt disk log =>
    next r k acct entry wrote =>
    refine kept.persisted ?_ ?_ path disk
    · intro j b found
      rw [accounts, FinMap.lookup_insert_apply] at found
      rw [log, salt]
      split at found
      · next same =>
        cases found
        rw [same]
        exact ⟨stores_keyed stores fun j b inStore => (kept.memory j b inStore).1,
          stored r wrote k acct entry rfl stores⟩
      · next other =>
        obtain ⟨keyed, has⟩ := kept.memory j b found
        exact ⟨keyed, others r wrote k acct entry rfl stores j b found other has⟩
    · rintro rfl p written fileSalt b member has
      rw [log]
      exact file r k acct entry rfl stores p written fileSalt b member has
  | deleteAccount found accounts path salt disk log =>
    refine kept.persisted ?_ ?_ path disk
    · rw [log, salt]
      exact fun j b inStore => kept.memory j b ((accounts j b).mp inStore).1
    · rw [log]
      exact fun _ _ _ _ _ _ has => has
  | removeDevice found secondary accounts path salt disk log =>
    refine kept.persisted ?_ ?_ path disk
    · rw [log, salt]
      exact fun j b inStore => kept.memory j b ((accounts j b).mp inStore).1
    · rw [log]
      exact fun _ _ _ _ _ _ has => has
  | restart =>
    next freshSalt readable =>
    refine ⟨?_, kept.disk, kept.distinct, by rw [boot_path]; exact kept.unwritten⟩
    intro k b found
    obtain ⟨p, salt, old, read, decoded, booted, written, rfl, keyed⟩ := lookup_boot found
    have onDisk : s.disk = some p := by
      split at read
      · exact read
      · cases read
    obtain ⟨fileSalt, encoded, records⟩ := kept.disk p onDisk
    rw [encoded, String.toList_ofList, Base64.decode_encode] at decoded
    cases decoded
    refine ⟨keyed, ?_⟩
    rw [booted]
    exact restoring _ _ _ (records old written)

end Hwfa.DiscoveryRecords
