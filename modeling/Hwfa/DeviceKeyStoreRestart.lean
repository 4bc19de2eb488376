import Hwfa.DeviceKeyStore

/-!
What survives a restart of the key store.

The preferences mirror the records in memory key by key, and a key says where
its record belongs; so `restore` rebuilds the records whatever the order of the
entries is, as long as it gets through: it decodes every string of the
preferences, not only those of the records.
-/

namespace Hwfa.DeviceKeyStoreRestart

open Hwfa.Machines Hwfa.Maps Hwfa.Texts Hwfa.DeviceKeyStore

variable {lib : Libsignal} {memory memory' restored : InMemoryStore lib} {order : Entries}

/-! ## Keys -/

theorem dec_enc (bytes : List UInt8) : dec (enc bytes) = some bytes := by
  simp [dec, enc, Base64.decodeSkipping_encode]

/-- A printed `Int` is read back. -/
theorem toIntOrNull_repr (n : Int32) : toIntOrNull n.toInt.repr.toList = some n := by
  have range : Int32.minValue.toInt ≤ n.toInt ∧ n.toInt ≤ Int32.maxValue.toInt :=
    ⟨Int32.minValue_le_toInt n, Int32.toInt_le n⟩
  unfold toIntOrNull
  split
  · next plus =>
    have sign : '+' ∈ n.toInt.repr.toList := by
      rw [plus]
      exact List.mem_cons_self
    rcases Decimals.repr_chars _ _ sign with minus | digit
    · exact absurd minus (by decide)
    · exact absurd digit (by decide)
  · simp only [Decimals.readInt_repr, Option.bind_some, if_pos range, Int32.ofInt_toInt]

theorem colon_not_mem_repr (n : Int32) : ':' ∉ n.toInt.repr.toList := by
  intro colon
  rcases Decimals.repr_chars _ _ colon with minus | digit
  · exact absurd minus (by decide)
  · exact absurd digit (by decide)

theorem repr_injective {m n : Int32} (same : m.toInt.repr.toList = n.toInt.repr.toList) : m = n :=
  Int32.toInt.inj (Decimals.repr_injective (String.toList_injective same))

/-- A key that belongs to no record. -/
def Outside (key : String) : Prop :=
  ∀ front ∈ [PRE, SIGNED, KYBER, SESSION], after front.toList key.toList = none

instance (key : String) : Decidable (Outside key) := by
  unfold Outside
  infer_instance

/-- A slot that `parseAddr` can name. -/
def Restorable : Slot → Prop
  | .session address => address.name ≠ ""
  | _ => True

instance (slot : Slot) : Decidable (Restorable slot) := by
  cases slot <;> unfold Restorable <;> infer_instance

theorem preKey_key (id : Int32) : (Slot.preKey id).key.toList = PRE.toList ++ id.toInt.repr.toList := by
  simp [Slot.key]

theorem signedPreKey_key (id : Int32) :
    (Slot.signedPreKey id).key.toList = SIGNED.toList ++ id.toInt.repr.toList := by
  simp [Slot.key]

theorem kyberPreKey_key (id : Int32) :
    (Slot.kyberPreKey id).key.toList = KYBER.toList ++ id.toInt.repr.toList := by
  simp [Slot.key]

theorem session_key (a : SignalProtocolAddress) : (Slot.session a).key.toList =
    SESSION.toList ++ (a.name.toList ++ ':' :: a.deviceId.toInt.repr.toList) := by
  simp [Slot.key, addrKey]

/-- The beginnings of the record keys tell the kinds apart. -/
theorem after_front (rest : List Char) :
    after PRE.toList (SIGNED.toList ++ rest) = none ∧
      after PRE.toList (KYBER.toList ++ rest) = none ∧
      after PRE.toList (SESSION.toList ++ rest) = none ∧
      after SIGNED.toList (KYBER.toList ++ rest) = none ∧
      after SIGNED.toList (SESSION.toList ++ rest) = none ∧
      after KYBER.toList (SESSION.toList ++ rest) = none := by
  simp [after, PRE, SIGNED, KYBER, SESSION]

theorem parseAddr_key (a : SignalProtocolAddress) :
    parseAddr (a.name.toList ++ ':' :: a.deviceId.toInt.repr.toList) =
      if a.name = "" then none else some a := by
  unfold parseAddr
  rw [splitAtLast_append _ (colon_not_mem_repr _)]
  simp [toIntOrNull_repr]

theorem restoreAt_record (slot : Int32 → Slot) (id : Int32) (record : lib.Record (slot id).kind) :
    memory.restoreAt slot id.toInt.repr.toList (lib.serialize record) =
      .ok (memory.put (slot id) record) := by
  simp [InMemoryStore.restoreAt, toIntOrNull_repr, orThrow, lib.deserialize_serialize, bind,
    Except.bind]

/-- `restore` puts a mirrored record back where it was, unless it cannot name it. -/
theorem restoreEntry_record (slot : Slot) (record : lib.Record slot.kind) :
    memory.restoreEntry slot.key (.str (enc (lib.serialize record))) =
      .ok (if Restorable slot then memory.put slot record else memory) := by
  simp only [InMemoryStore.restoreEntry, dec_enc, orThrow, bind, Except.bind]
  cases slot with
  | preKey id =>
    simp only [preKey_key, after_append, restoreAt_record]
    rfl
  | signedPreKey id =>
    simp only [signedPreKey_key, after_front, after_append, restoreAt_record]
    rfl
  | kyberPreKey id =>
    simp only [kyberPreKey_key, after_front, after_append, restoreAt_record]
    rfl
  | session address =>
    simp only [session_key, after_front, after_append, parseAddr_key]
    by_cases unnamed : address.name = ""
    · simp [unnamed, Restorable]
    · simp [unnamed, Restorable, lib.deserialize_serialize]

/-- `restore` passes over any other string that it can decode. -/
theorem restoreEntry_outside {key value : String} (outside : Outside key) :
    memory.restoreEntry key (.str value) =
      (orThrow .badBase64 (dec value)).map fun _ => memory := by
  have pre := outside PRE (by simp)
  have signed := outside SIGNED (by simp)
  have kyber := outside KYBER (by simp)
  have session := outside SESSION (by simp)
  simp only [InMemoryStore.restoreEntry, pre, signed, kyber, session]
  cases dec value <;> rfl

/-- No two slots share a key. -/
theorem key_injective {slot slot' : Slot} (same : slot.key = slot'.key) : slot = slot' := by
  have texts := congrArg String.toList same
  cases slot with
  | preKey id =>
    cases slot' with
    | preKey id' =>
      simp only [preKey_key] at texts
      rw [repr_injective (List.append_cancel_left texts)]
    | _ => simp [Slot.key, addrKey, PRE, SIGNED, KYBER, SESSION] at texts
  | signedPreKey id =>
    cases slot' with
    | signedPreKey id' =>
      simp only [signedPreKey_key] at texts
      rw [repr_injective (List.append_cancel_left texts)]
    | _ => simp [Slot.key, addrKey, PRE, SIGNED, KYBER, SESSION] at texts
  | kyberPreKey id =>
    cases slot' with
    | kyberPreKey id' =>
      simp only [kyberPreKey_key] at texts
      rw [repr_injective (List.append_cancel_left texts)]
    | _ => simp [Slot.key, addrKey, PRE, SIGNED, KYBER, SESSION] at texts
  | session address =>
    cases slot' with
    | session address' =>
      simp only [session_key] at texts
      obtain ⟨name, device⟩ := split_at_last (colon_not_mem_repr _) (colon_not_mem_repr _)
        (List.append_cancel_left texts)
      obtain ⟨name₁, device₁⟩ := address
      obtain ⟨name₂, device₂⟩ := address'
      obtain rfl : name₁ = name₂ := String.toList_injective name
      obtain rfl : device₁ = device₂ := repr_injective device
      rfl
    | _ => simp [Slot.key, addrKey, PRE, SIGNED, KYBER, SESSION] at texts

theorem outside_ne_key {key : String} (outside : Outside key) (slot : Slot) : key ≠ slot.key := by
  rintro rfl
  cases slot with
  | preKey id =>
    have none := outside PRE (by simp)
    simp [preKey_key, after_append] at none
  | signedPreKey id =>
    have none := outside SIGNED (by simp)
    simp [signedPreKey_key, after_append] at none
  | kyberPreKey id =>
    have none := outside KYBER (by simp)
    simp [kyberPreKey_key, after_append] at none
  | session address =>
    have none := outside SESSION (by simp)
    simp [session_key, after_append] at none

/-! ## Restoring -/

/-- What is found under a key: the mirror of a record, or something else. -/
inductive Written (lib : Libsignal) : String → PrefValue → Prop where
  | record (slot : Slot) (record : lib.Record slot.kind) :
      Written lib slot.key (.str (enc (lib.serialize record)))
  | outside {key : String} {value : PrefValue} : Outside key → Written lib key value

/-- The bytes a preference holds. -/
def bytesOf : Option PrefValue → Option (List UInt8)
  | some (.str value) => dec value
  | _ => none

/-- A preference that `restore` gets past. -/
def Decodable : PrefValue → Prop
  | .str value => (dec value).isSome
  | .int _ => True

theorem put_lookup (memory : InMemoryStore lib) (slot slot' : Slot) (record : lib.Record slot.kind) :
    (memory.put slot record).records.lookup slot' =
      if slot' = slot then some (lib.serialize record) else memory.records.lookup slot' :=
  FinMap.lookup_insert_apply _ _ _ _

theorem Written.at_slot {key : String} {value : PrefValue} (written : Written lib key value)
    {slot : Slot} (own : key = slot.key) :
    ∃ record : lib.Record slot.kind, value = .str (enc (lib.serialize record)) := by
  cases written with
  | record slot' record =>
    obtain rfl := key_injective own
    exact ⟨record, rfl⟩
  | outside outside => exact absurd own (outside_ne_key outside slot)

/-- One round of `restore` puts back the record it passes and nothing else. -/
theorem restoreEntry_lookup {key : String} {value : PrefValue} (written : Written lib key value)
    (ran : memory.restoreEntry key value = .ok memory') (slot : Slot) :
    memory'.records.lookup slot =
      if key = slot.key ∧ Restorable slot then bytesOf (some value)
      else memory.records.lookup slot := by
  cases written with
  | record own record =>
    rw [restoreEntry_record] at ran
    cases ran
    by_cases same : own = slot
    · subst same
      by_cases restorable : Restorable own
      · simp [restorable, put_lookup, bytesOf, dec_enc]
      · simp [restorable]
    · have keys : own.key ≠ slot.key := fun keys => same (key_injective keys)
      simp only [keys, false_and, if_false]
      split
      · rw [put_lookup, if_neg (Ne.symm same)]
      · rfl
  | outside outside =>
    rw [if_neg fun both => outside_ne_key outside slot both.1]
    cases value with
    | int n =>
      cases ran
      rfl
    | str value =>
      rw [restoreEntry_outside outside] at ran
      cases decoded : dec value with
      | none =>
        rw [decoded] at ran
        cases ran
      | some bytes =>
        rw [decoded] at ran
        cases ran
        rfl

/-- `restore` rebuilds the records the entries hold, in whatever order. -/
theorem restore_lookup (written : ∀ entry ∈ order, Written lib entry.1 entry.2)
    (distinct : order.NodupKeys) (ran : memory.restore order = .ok restored) (slot : Slot) :
    restored.records.lookup slot =
      if Restorable slot then (bytesOf (order.dlookup slot.key)).or (memory.records.lookup slot)
      else memory.records.lookup slot := by
  induction order generalizing memory with
  | nil =>
    cases ran
    simp [bytesOf]
  | cons entry rest ih =>
    obtain ⟨key, value⟩ := entry
    obtain ⟨fresh, distinct⟩ := List.nodupKeys_cons.mp distinct
    unfold InMemoryStore.restore at ran
    cases round : memory.restoreEntry key value with
    | error thrown =>
      rw [round] at ran
      cases ran
    | ok next =>
      rw [round] at ran
      have later := ih (fun entry member => written entry (List.mem_cons_of_mem _ member)) distinct ran
      rw [later, restoreEntry_lookup (written _ List.mem_cons_self) round]
      by_cases own : key = slot.key
      · obtain ⟨record, rfl⟩ := (written _ List.mem_cons_self).at_slot own
        have none_left : rest.dlookup slot.key = none := by
          rw [List.dlookup_eq_none, ← own]
          exact fresh
        simp [own, none_left, List.dlookup_cons_eq, bytesOf, dec_enc]
      · rw [List.dlookup_cons_ne rest ⟨key, value⟩ (Ne.symm own)]
        simp [own]

/-- One round of `restore` goes through on what it can decode, and throws on the rest. -/
theorem restoreEntry_cases (memory : InMemoryStore lib) {key : String} {value : PrefValue}
    (written : Written lib key value) :
    (Decodable value ∧ ∃ next, memory.restoreEntry key value = .ok next ∧
        next.identityKeyPair = memory.identityKeyPair ∧
        next.registrationId = memory.registrationId) ∨
      (¬ Decodable value ∧ ∃ thrown, memory.restoreEntry key value = .error thrown) := by
  cases written with
  | record slot record =>
    refine .inl ⟨by simp [Decodable, dec_enc], _, restoreEntry_record slot record, ?_, ?_⟩
    · split <;> rfl
    · split <;> rfl
  | outside outside =>
    cases value with
    | int n => exact .inl ⟨trivial, memory, rfl, rfl, rfl⟩
    | str value =>
      rw [restoreEntry_outside outside]
      cases decoded : dec value with
      | none => exact .inr ⟨by simp [Decodable, decoded], .badBase64, rfl⟩
      | some bytes => exact .inl ⟨by simp [Decodable, decoded], memory, rfl, rfl, rfl⟩

/-- `restore` gets through exactly when it can decode every string. -/
theorem restore_ok_iff (memory : InMemoryStore lib)
    (written : ∀ entry ∈ order, Written lib entry.1 entry.2) :
    (∃ restored, memory.restore order = .ok restored) ↔ ∀ entry ∈ order, Decodable entry.2 := by
  induction order generalizing memory with
  | nil =>
    refine ⟨fun _ entry member => ?_, fun _ => ⟨memory, rfl⟩⟩
    cases member
  | cons entry rest ih =>
    rw [List.forall_mem_cons] at written ⊢
    unfold InMemoryStore.restore
    rcases restoreEntry_cases memory written.1 with
      ⟨decodable, next, round, -⟩ | ⟨refused, thrown, round⟩
    · rw [round]
      exact (ih next written.2).trans (and_iff_right decodable).symm
    · rw [round]
      constructor
      · rintro ⟨restored, ran⟩
        cases ran
      · rintro ⟨decodable, -⟩
        exact absurd decodable refused

/-- `restore` leaves the identity as it was loaded. -/
theorem restore_identity (memory : InMemoryStore lib)
    (written : ∀ entry ∈ order, Written lib entry.1 entry.2)
    (ran : memory.restore order = .ok restored) :
    restored.identityKeyPair = memory.identityKeyPair ∧
      restored.registrationId = memory.registrationId := by
  induction order generalizing memory with
  | nil =>
    cases ran
    exact ⟨rfl, rfl⟩
  | cons entry rest ih =>
    rw [List.forall_mem_cons] at written
    unfold InMemoryStore.restore at ran
    rcases restoreEntry_cases memory written.1 with
      ⟨-, next, round, identity, registration⟩ | ⟨-, thrown, round⟩
    · rw [round] at ran
      obtain ⟨identity', registration'⟩ := ih next written.2 ran
      exact ⟨identity'.trans identity, registration'.trans registration⟩
    · rw [round] at ran
      cases ran

/-! ## The invariant -/

/-- Every key is one that the store or the module writes. -/
def WellWritten (lib : Libsignal) (prefs : Prefs) : Prop :=
  ∀ key value, prefs.lookup key = some value → Written lib key value

/-- The preferences hold the store's identity, and no key that nobody writes. -/
structure Identified (s : PersistentStore lib) : Prop where
  written : WellWritten lib s.prefs
  identity : s.prefs.lookup IDENTITY_KEYPAIR =
    some (.str (enc (lib.serialize s.memory.identityKeyPair)))
  registration : s.prefs.lookup REGISTRATION_ID = some (.int s.memory.registrationId)

/-- The preferences also mirror the records in memory, and hold no string that
cannot be decoded. -/
structure Mirrors (s : PersistentStore lib) : Prop extends Identified s where
  records : ∀ slot, bytesOf (s.prefs.lookup slot.key) = s.memory.records.lookup slot
  restorable : ∀ slot, (s.memory.records.lookup slot).isSome → Restorable slot
  decodable : ∀ key value, s.prefs.lookup key = some value → Decodable value

variable {s : PersistentStore lib} {prefs : Prefs}

theorem WellWritten.insert (written : WellWritten lib prefs) {key : String} {value : PrefValue}
    (own : Written lib key value) : WellWritten lib (prefs.insert key value) := by
  intro key' value' found
  rw [FinMap.lookup_insert_apply] at found
  split at found
  · next same =>
    cases found
    rw [same]
    exact own
  · exact written key' value' found

theorem identity_outside : Outside IDENTITY_KEYPAIR := by decide

theorem registration_outside : Outside REGISTRATION_ID := by decide

theorem Identified.insert (identified : Identified s) {key : String} {value : PrefValue}
    (own : Written lib key value) (identity : IDENTITY_KEYPAIR ≠ key)
    (registration : REGISTRATION_ID ≠ key) :
    Identified { s with prefs := s.prefs.insert key value } where
  written := identified.written.insert own
  identity := by
    rw [FinMap.lookup_insert_apply, if_neg identity]
    exact identified.identity
  registration := by
    rw [FinMap.lookup_insert_apply, if_neg registration]
    exact identified.registration

/-- A preference that is no record's leaves the mirror as it is. -/
theorem Mirrors.insert_outside (mirrors : Mirrors s) {key : String} {value : PrefValue}
    (outside : Outside key) (decodable : Decodable value) (identity : IDENTITY_KEYPAIR ≠ key)
    (registration : REGISTRATION_ID ≠ key) :
    Mirrors { s with prefs := s.prefs.insert key value } where
  toIdentified := mirrors.toIdentified.insert (.outside outside) identity registration
  records slot := by
    rw [FinMap.lookup_insert_apply, if_neg (outside_ne_key outside slot).symm]
    exact mirrors.records slot
  restorable := mirrors.restorable
  decodable key' value' found := by
    rw [FinMap.lookup_insert_apply] at found
    split at found
    · cases found
      exact decodable
    · exact mirrors.decodable key' value' found

theorem Identified.storeRecord (identified : Identified s) (slot : Slot)
    (record : lib.Record slot.kind) : Identified (s.storeRecord slot record) := by
  have inserted := identified.insert (.record slot record)
    (outside_ne_key identity_outside slot) (outside_ne_key registration_outside slot)
  exact ⟨inserted.written, inserted.identity, inserted.registration⟩

theorem Mirrors.storeRecord (mirrors : Mirrors s) (slot : Slot) (record : lib.Record slot.kind)
    (restorable : Restorable slot) : Mirrors (s.storeRecord slot record) where
  toIdentified := mirrors.toIdentified.storeRecord slot record
  records slot' := by
    simp only [PersistentStore.storeRecord, put_lookup, FinMap.lookup_insert_apply]
    by_cases same : slot' = slot
    · subst same
      simp [bytesOf, dec_enc]
    · have keys : slot'.key ≠ slot.key := fun keys => same (key_injective keys)
      simpa [same, keys] using mirrors.records slot'
  restorable slot' kept := by
    simp only [PersistentStore.storeRecord, put_lookup] at kept
    split at kept
    · next same => exact same ▸ restorable
    · exact mirrors.restorable slot' kept
  decodable key value found := by
    simp only [PersistentStore.storeRecord, FinMap.lookup_insert_apply] at found
    split at found
    · cases found
      simp [Decodable, dec_enc]
    · exact mirrors.decodable key value found

theorem Mirrors.removeRecord (mirrors : Mirrors s) (slot : Slot) :
    Mirrors (s.removeRecord slot) where
  written key value found := by
    simp only [PersistentStore.removeRecord, FinMap.lookup_erase_apply] at found
    split at found
    · cases found
    · exact mirrors.written key value found
  identity := by
    have other := outside_ne_key identity_outside slot
    simpa [PersistentStore.removeRecord, FinMap.lookup_erase_apply, other] using mirrors.identity
  registration := by
    have other := outside_ne_key registration_outside slot
    simpa [PersistentStore.removeRecord, FinMap.lookup_erase_apply, other]
      using mirrors.registration
  records slot' := by
    simp only [PersistentStore.removeRecord, FinMap.lookup_erase_apply]
    by_cases same : slot' = slot
    · subst same
      simp [bytesOf]
    · have keys : slot'.key ≠ slot.key := fun keys => same (key_injective keys)
      simpa [same, keys] using mirrors.records slot'
  restorable slot' kept := by
    simp only [PersistentStore.removeRecord, FinMap.lookup_erase_apply] at kept
    split at kept
    · cases kept
    · exact mirrors.restorable slot' kept
  decodable key value found := by
    simp only [PersistentStore.removeRecord, FinMap.lookup_erase_apply] at found
    split at found
    · cases found
    · exact mirrors.decodable key value found

/-- A session whose name goes on behind the given one and a colon. -/
def GoesOn (name : String) : Slot → Prop
  | .session address => (name.toList ++ [':']) <+: address.name.toList
  | _ => False

instance (name : String) (slot : Slot) : Decidable (GoesOn name slot) := by
  cases slot <;> unfold GoesOn <;> infer_instance

/-- The keys that `deleteAllSessions` removes. -/
theorem after_session_key (name : String) (slot : Slot) :
    (after (SESSION ++ name ++ ":").toList slot.key.toList).isSome ↔
      PersistentStore.named name slot ∨ GoesOn name slot := by
  rw [after_isSome_iff]
  cases slot with
  | session address =>
    have front : (SESSION ++ name ++ ":").toList = SESSION.toList ++ (name.toList ++ [':']) := by
      simp
    rw [session_key, front, List.prefix_append_right_inj,
      append_sep_prefix_iff (colon_not_mem_repr _)]
    refine or_congr ?_ Iff.rfl
    simp [PersistentStore.named, String.toList_inj, eq_comm]
  | preKey id => simp [Slot.key, PRE, SESSION, PersistentStore.named, GoesOn]
  | signedPreKey id => simp [Slot.key, SIGNED, SESSION, PersistentStore.named, GoesOn]
  | kyberPreKey id => simp [Slot.key, KYBER, SESSION, PersistentStore.named, GoesOn]

theorem after_outside {key : String} (outside : Outside key) (name : String) :
    after (SESSION ++ name ++ ":").toList key.toList = none := by
  rw [String.toList_append, String.toList_append, List.append_assoc, after_append_left,
    outside SESSION (by simp)]
  rfl

theorem WellWritten.keep (written : WellWritten lib prefs) (p : String → PrefValue → Bool) :
    WellWritten lib (prefs.keep p) :=
  fun key value found => written key value (FinMap.lookup_keep.mp found).1

theorem Identified.deleteAllSessions (identified : Identified s) (name : String) :
    Identified (s.deleteAllSessions name) where
  written := identified.written.keep _
  identity := by
    simp only [PersistentStore.deleteAllSessions, FinMap.lookup_keep_apply, identified.identity,
      after_outside identity_outside]
    rfl
  registration := by
    simp only [PersistentStore.deleteAllSessions, FinMap.lookup_keep_apply,
      identified.registration, after_outside registration_outside]
    rfl

theorem Mirrors.deleteAllSessions (mirrors : Mirrors s) {name : String}
    (apart : ∀ slot, (s.memory.records.lookup slot).isSome → ¬ GoesOn name slot) :
    Mirrors (s.deleteAllSessions name) where
  toIdentified := mirrors.toIdentified.deleteAllSessions name
  records slot := by
    have mirrored := mirrors.records slot
    simp only [PersistentStore.deleteAllSessions, FinMap.lookup_keep_apply]
    cases kept : s.memory.records.lookup slot with
    | none =>
      rw [kept] at mirrored
      cases found : s.prefs.lookup slot.key with
      | none => rfl
      | some value =>
        rw [found] at mirrored
        rw [Option.filter_some]
        split
        · exact mirrored
        · rfl
    | some bytes =>
      -- a stored session is removed from both or from neither
      have removed := after_session_key name slot
      rw [or_iff_left (apart slot (by rw [kept]; rfl))] at removed
      have both : (after (SESSION ++ name ++ ":").toList slot.key.toList).isNone =
          !PersistentStore.named name slot := by
        rw [← Option.not_isSome, Bool.eq_iff_iff.mpr removed]
      rw [both]
      rw [kept] at mirrored
      cases found : s.prefs.lookup slot.key with
      | none =>
        rw [found] at mirrored
        cases mirrored
      | some value =>
        rw [found] at mirrored
        cases PersistentStore.named name slot with
        | true => rfl
        | false => exact mirrored
  restorable slot kept := by
    obtain ⟨bytes, found⟩ := Option.isSome_iff_exists.mp kept
    have before := (FinMap.lookup_keep.mp found).1
    exact mirrors.restorable slot (by rw [before]; rfl)
  decodable key value found := mirrors.decodable key value (FinMap.lookup_keep.mp found).1

theorem Mirrors.mintFrom (mirrors : Mirrors s) (start : Int32) (keyPairs : Nat → lib.KeyPair)
    (n : Nat) : Mirrors (s.mintFrom start keyPairs n).store := by
  induction n with
  | zero => exact mirrors
  | succ n ih =>
    unfold PersistentStore.mintFrom PersistentStore.Minting.mint
    split
    · exact ih
    · split
      · exact ih.storeRecord _ _ trivial
      · exact ih

theorem Mirrors.mintOneTimePreKeys (mirrors : Mirrors s) (count : Int32)
    (keyPairs : Nat → lib.KeyPair) : Mirrors (s.mintOneTimePreKeys count keyPairs).store := by
  unfold PersistentStore.mintOneTimePreKeys
  cases getInt s.prefs PK_HIGH 0 with
  | error thrown => exact mirrors
  | ok high =>
    dsimp only
    have minted := mirrors.mintFrom (max (PersistentStore.scanned s.prefs) high + 1) keyPairs
      count.toInt.toNat
    split
    · exact mirrors
    · split
      · exact minted
      · exact minted.insert_outside (by decide) trivial (by decide) (by decide)

/-! ## Restarts -/

/-- The loaded store is the one that was in memory. -/
structure Rebuilds (loaded memory : InMemoryStore lib) : Prop where
  identity : loaded.identityKeyPair = memory.identityKeyPair
  registration : loaded.registrationId = memory.registrationId
  records : ∀ slot, loaded.records.lookup slot = memory.records.lookup slot

/-- A restart loads what was in memory, in whatever order it meets the preferences. -/
def Survives (d : Device lib) : Prop :=
  ∀ order : Entries, order.Perm d.prefs.entries →
    ∃ loaded, load lib d.prefs order = .ok loaded ∧ Option.Rel Rebuilds loaded d.store

/-- A string that Android's decoder accepts. -/
def Accepted (value : String) : Prop := (dec value).isSome

instance (value : String) : Decidable (Accepted value) := by
  unfold Accepted
  infer_instance

/-- While there is an identity, only strings that can be decoded are saved; no
session is stored without a name; and all sessions of a name are deleted only
when no other name goes on behind it with a colon. -/
def Sparing (d : Device lib) : Action lib → Prop
  | .saveAccount accountId phone token refreshToken =>
    d.store.isSome → ∀ value ∈ [accountId, phone, token, refreshToken], Accepted value
  | .saveMessages json | .saveReports json => d.store.isSome → Accepted json
  | .storeSession address _ => d.store.isSome → address.name ≠ ""
  | .deleteAllSessions name =>
    ∀ memory ∈ d.store, ∀ slot ∈ memory.records.keys, ¬ GoesOn name slot
  | _ => True

instance (d : Device lib) (a : Action lib) : Decidable (Sparing d a) := by
  cases a <;> unfold Sparing <;> infer_instance

/-- The module and its preferences agree. -/
structure Sound (d : Device lib) : Prop where
  written : WellWritten lib d.prefs
  anonymous : d.store = none → d.prefs.lookup IDENTITY_KEYPAIR = none
  mirrors : ∀ memory, d.store = some memory → Mirrors ⟨d.prefs, memory⟩

variable {d d' : Device lib}

/-- The entries of an iteration are the preferences. -/
theorem mem_order (order_of : order.Perm prefs.entries) {entry : Sigma fun _ : String => PrefValue} :
    entry ∈ order ↔ prefs.lookup entry.1 = some entry.2 := by
  rw [order_of.mem_iff, ← Option.mem_def, AList.mem_lookup_iff]

theorem dlookup_order (order_of : order.Perm prefs.entries) (key : String) :
    order.dlookup key = prefs.lookup key :=
  List.perm_dlookup key (List.perm_nodupKeys order_of |>.mpr prefs.nodupKeys) order_of

variable {identity : lib.Record .identityKeyPair} {registrationId : Int32}

/-- With an identity, loading is restoring into a store of that identity. -/
theorem load_eq_ok_iff {loaded : Option (InMemoryStore lib)}
    (found : prefs.lookup IDENTITY_KEYPAIR = some (.str (enc (lib.serialize identity))))
    (registered : prefs.lookup REGISTRATION_ID = some (.int registrationId)) :
    load lib prefs order = .ok loaded ↔ ∃ restored, loaded = some restored ∧
      ({ identityKeyPair := identity, registrationId := registrationId } :
        InMemoryStore lib).restore order = .ok restored := by
  simp only [load, found, getInt, registered, dec_enc, orThrow, lib.deserialize_serialize, bind,
    Except.bind]
  split
  · next thrown ran => simp [ran]
  · next restored ran => simp [ran, eq_comm]

/-- With an identity, loading goes through exactly when every string can be decoded. -/
theorem load_ok_iff (written : WellWritten lib prefs)
    (found : prefs.lookup IDENTITY_KEYPAIR = some (.str (enc (lib.serialize identity))))
    (registered : prefs.lookup REGISTRATION_ID = some (.int registrationId))
    (order_of : order.Perm prefs.entries) :
    (∃ loaded, load lib prefs order = .ok loaded) ↔
      ∀ key value, prefs.lookup key = some value → Decodable value := by
  have gets_through := restore_ok_iff
    ({ identityKeyPair := identity, registrationId := registrationId } : InMemoryStore lib)
    fun entry member => written _ _ ((mem_order order_of).mp member)
  have entries : (∀ entry ∈ order, Decodable entry.2) ↔
      ∀ key value, prefs.lookup key = some value → Decodable value := by
    constructor
    · intro decodable key value at_key
      exact decodable ⟨key, value⟩ ((mem_order order_of).mpr at_key)
    · intro decodable entry member
      exact decodable entry.1 entry.2 ((mem_order order_of).mp member)
  rw [← entries, ← gets_through]
  constructor
  · rintro ⟨loaded, ran⟩
    obtain ⟨restored, -, ran⟩ := (load_eq_ok_iff found registered).mp ran
    exact ⟨restored, ran⟩
  · rintro ⟨restored, ran⟩
    exact ⟨some restored, (load_eq_ok_iff found registered).mpr ⟨restored, rfl, ran⟩⟩

/-- What is loaded: the identity, and the records of the preferences that have a name. -/
theorem of_load {loaded : Option (InMemoryStore lib)} (written : WellWritten lib prefs)
    (found : prefs.lookup IDENTITY_KEYPAIR = some (.str (enc (lib.serialize identity))))
    (registered : prefs.lookup REGISTRATION_ID = some (.int registrationId))
    (order_of : order.Perm prefs.entries) (ran : load lib prefs order = .ok loaded) :
    ∃ restored, loaded = some restored ∧ restored.identityKeyPair = identity ∧
      restored.registrationId = registrationId ∧ ∀ slot, restored.records.lookup slot =
        if Restorable slot then bytesOf (prefs.lookup slot.key) else none := by
  obtain ⟨restored, rfl, through⟩ := (load_eq_ok_iff found registered).mp ran
  have entries : ∀ entry ∈ order, Written lib entry.1 entry.2 :=
    fun entry member => written _ _ ((mem_order order_of).mp member)
  obtain ⟨same, same'⟩ := restore_identity _ entries through
  refine ⟨restored, rfl, same, same', ?_⟩
  intro slot
  have distinct : order.NodupKeys := (List.perm_nodupKeys order_of).mpr prefs.nodupKeys
  rw [restore_lookup entries distinct through, dlookup_order order_of]
  simp

theorem Sound.survives (sound : Sound d) : Survives d := by
  intro order order_of
  cases held : d.store with
  | none =>
    refine ⟨none, ?_, .none⟩
    unfold load
    rw [sound.anonymous held]
  | some memory =>
    have mirrors := sound.mirrors memory held
    obtain ⟨loaded, ran⟩ := (load_ok_iff mirrors.written mirrors.identity mirrors.registration
      order_of).mpr mirrors.decodable
    obtain ⟨restored, rfl, identity, registration, records⟩ := of_load mirrors.written
      mirrors.identity mirrors.registration order_of ran
    refine ⟨some restored, ran, .some ⟨identity, registration, ?_⟩⟩
    intro slot
    rw [records]
    split
    · exact mirrors.records slot
    · next unnamed =>
      cases kept : memory.records.lookup slot with
      | none => rfl
      | some bytes => exact absurd (mirrors.restorable slot (by rw [kept]; rfl)) unnamed

/-- What a device that survives has in memory. -/
theorem Survives.records {memory : InMemoryStore lib} (survives : Survives d)
    (held : d.store = some memory) (identified : Identified ⟨d.prefs, memory⟩) :
    (∀ key value, d.prefs.lookup key = some value → Decodable value) ∧
      ∀ slot, memory.records.lookup slot =
        if Restorable slot then bytesOf (d.prefs.lookup slot.key) else none := by
  obtain ⟨loaded, ran, rebuilds⟩ := survives d.prefs.entries (.refl _)
  rw [held] at rebuilds
  obtain ⟨written, found, registered⟩ := identified
  obtain ⟨restored, rfl, -, -, records⟩ := of_load written found registered (.refl _) ran
  cases rebuilds with
  | some rebuilds =>
    refine ⟨(load_ok_iff written found registered (.refl _)).mp ⟨_, ran⟩, ?_⟩
    intro slot
    rw [← rebuilds.records, records]

/-! ## Runs -/

/-- A method that keeps the mirror keeps the module and its preferences in agreement. -/
theorem Sound.call (sound : Sound d) (method : PersistentStore lib → PersistentStore lib)
    (called : d.call method = some d')
    (keeps : ∀ memory, d.store = some memory → Mirrors ⟨d.prefs, memory⟩ →
      Mirrors (method ⟨d.prefs, memory⟩)) : Sound d' := by
  obtain ⟨memory, held, rfl⟩ := Option.map_eq_some_iff.mp called
  have mirrors := keeps memory held (sound.mirrors memory held)
  refine ⟨mirrors.written, ?_, ?_⟩
  · intro nothing
    cases nothing
  · intro memory' same
    cases same
    exact mirrors

/-- Saving a string that is no record keeps the agreement, if it is accepted. -/
theorem Sound.save (sound : Sound d) (key : String) {value : PrefValue}
    (outside : Outside key) (decodable : d.store.isSome → Decodable value)
    (identity : IDENTITY_KEYPAIR ≠ key) (registration : REGISTRATION_ID ≠ key) :
    Sound { d with prefs := d.prefs.insert key value } where
  written := sound.written.insert (.outside outside)
  anonymous nothing := by
    rw [FinMap.lookup_insert_apply, if_neg identity]
    exact sound.anonymous nothing
  mirrors memory held :=
    (sound.mirrors memory held).insert_outside outside (decodable (by simp_all)) identity
      registration

theorem sound_create (identityKeyPair : lib.Record .identityKeyPair)
    (registrationId deviceId : Int32) :
    Sound (Device.create identityKeyPair registrationId deviceId : Device lib) := by
  have found (key : String) : (Device.create identityKeyPair registrationId deviceId).prefs.lookup
      key = if key = REGISTRATION_ID then some (.int registrationId)
        else if key = IDENTITY_KEYPAIR then some (.str (enc (lib.serialize identityKeyPair)))
        else none := by
    simp only [Device.create, FinMap.lookup_insert_apply, AList.lookup_empty]
  have written : WellWritten lib
      (Device.create identityKeyPair registrationId deviceId : Device lib).prefs := by
    intro key value at_key
    rw [found] at at_key
    split at at_key
    · next own => exact .outside (own ▸ registration_outside)
    · split at at_key
      · next own => exact .outside (own ▸ identity_outside)
      · cases at_key
  refine ⟨written, ?_, ?_⟩
  · intro nothing
    cases nothing
  · intro memory held
    cases held
    refine ⟨⟨written, by rw [found]; rfl, by rw [found]; rfl⟩, ?_, ?_, ?_⟩
    · intro slot
      have registration := (outside_ne_key registration_outside slot).symm
      have identity := (outside_ne_key identity_outside slot).symm
      simp [found, registration, identity, bytesOf]
    · intro slot kept
      cases kept
    · intro key value at_key
      simp only [found] at at_key
      split at at_key
      · cases at_key
        trivial
      · split at at_key
        · cases at_key
          simp [Decodable, dec_enc]
        · cases at_key

theorem sound_fresh : Sound (Device.fresh : Device lib) := by
  refine ⟨?_, fun _ => rfl, ?_⟩
  · intro key value found
    cases found
  · intro memory held
    cases held

/-- A restart goes on with what the device had. -/
theorem Sound.restart (sound : Sound d) (order_of : order.Perm d.prefs.entries)
    (ran : d.restart order = .ok d') : Sound d' := by
  obtain ⟨loaded, loads, rebuilds⟩ := sound.survives order order_of
  simp only [Device.restart, loads, bind, Except.bind] at ran
  split at ran
  · cases ran
  · cases ran
    cases held : d.store with
    | none =>
      rw [held] at rebuilds
      cases rebuilds
      refine ⟨sound.written, fun _ => sound.anonymous held, ?_⟩
      intro memory nothing
      cases nothing
    | some memory =>
      rw [held] at rebuilds
      cases rebuilds with
      | some rebuilds =>
        have mirrors := sound.mirrors memory held
        refine ⟨sound.written, ?_, ?_⟩
        · intro nothing
          cases nothing
        · intro restored same
          cases same
          exact { written := sound.written
                  identity := by rw [rebuilds.identity]; exact mirrors.identity
                  registration := by rw [rebuilds.registration]; exact mirrors.registration
                  records := fun slot => by rw [rebuilds.records]; exact mirrors.records slot
                  restorable := fun slot kept => by
                    rw [rebuilds.records] at kept
                    exact mirrors.restorable slot kept
                  decodable := mirrors.decodable }

theorem step_sound {a : Action lib} (sound : Sound d) (sparing : Sparing d a)
    (moved : d.step a = some d') : Sound d' := by
  cases a with
  | create identityKeyPair registrationId deviceId =>
    cases moved
    exact sound_create identityKeyPair registrationId deviceId
  | storePreKey id record =>
    exact sound.call (·.storePreKey id record) moved fun _ _ mirrors => mirrors.storeRecord (.preKey id) record trivial
  | removePreKey id =>
    exact sound.call (·.removePreKey id) moved fun _ _ mirrors => mirrors.removeRecord (.preKey id)
  | storeSignedPreKey id record =>
    exact sound.call (·.storeSignedPreKey id record) moved fun _ _ mirrors =>
      mirrors.storeRecord (.signedPreKey id) record trivial
  | removeSignedPreKey id =>
    exact sound.call (·.removeSignedPreKey id) moved fun _ _ mirrors => mirrors.removeRecord (.signedPreKey id)
  | storeKyberPreKey id record =>
    exact sound.call (·.storeKyberPreKey id record) moved fun _ _ mirrors => mirrors.storeRecord (.kyberPreKey id) record trivial
  | storeSession address record =>
    refine sound.call (·.storeSession address record) moved fun memory held mirrors =>
      mirrors.storeRecord (.session address) record ?_
    exact sparing (by rw [held]; rfl)
  | deleteSession address =>
    exact sound.call (·.deleteSession address) moved fun _ _ mirrors => mirrors.removeRecord (.session address)
  | deleteAllSessions name =>
    refine sound.call (·.deleteAllSessions name) moved fun memory held mirrors => mirrors.deleteAllSessions ?_
    intro slot kept
    exact sparing memory held slot (AList.lookup_isSome.mp kept)
  | mintOneTimePreKeys count keyPairs =>
    exact sound.call (·.mintOneTimePreKeys count keyPairs |>.store) moved
      fun _ _ mirrors => mirrors.mintOneTimePreKeys count keyPairs
  | saveAccount accountId phone token refreshToken =>
    cases moved
    have accepted (value : String) (member : value ∈ [accountId, phone, token, refreshToken]) :
        d.store.isSome → Decodable (.str value) := fun held => sparing held value member
    have saved := sound.save ACCOUNT_ID (by decide) (accepted accountId (by simp))
      (by decide) (by decide)
    have saved := saved.save ACCOUNT_PHONE (by decide) (accepted phone (by simp))
      (by decide) (by decide)
    have saved := saved.save ACCOUNT_TOKEN (by decide) (accepted token (by simp))
      (by decide) (by decide)
    have saved := saved.save ACCOUNT_REFRESH (by decide) (accepted refreshToken (by simp))
      (by decide) (by decide)
    exact saved.save ACCOUNT_DEVICE (by decide) (fun _ => trivial) (by decide) (by decide)
  | saveMessages json =>
    cases moved
    exact sound.save MESSAGES (by decide) sparing (by decide) (by decide)
  | saveReports json =>
    cases moved
    exact sound.save REPORTS (by decide) sparing (by decide) (by decide)
  | reset =>
    cases moved
    exact sound_fresh
  | restart order =>
    simp only [Device.step] at moved
    split at moved
    · next order_of =>
      cases ran : d.restart order with
      | error thrown =>
        rw [ran] at moved
        cases moved
      | ok next =>
        rw [ran] at moved
        cases moved
        exact sound.restart order_of ran
    · cases moved

theorem reached_sound (reached : (device lib).Reached Sparing d) : Sound d := by
  refine reached.invariant Sound ?_ fun _ _ _ sound sparing moved => step_sound sound sparing moved
  rintro d rfl
  exact sound_fresh

/-- Only accepted strings are saved into a device that survives it. -/
theorem Survives.accepted {memory : InMemoryStore lib} (survives : Survives d')
    (held : d'.store = some memory) (identified : Identified ⟨d'.prefs, memory⟩)
    {key value : String} (found : d'.prefs.lookup key = some (.str value)) : Accepted value :=
  (survives.records held identified).1 key (.str value) found

/-- A string saved under a key of its own. -/
theorem Identified.save (identified : Identified s) (key : String) (value : PrefValue)
    (outside : Outside key) (identity : IDENTITY_KEYPAIR ≠ key)
    (registration : REGISTRATION_ID ≠ key) :
    Identified { s with prefs := s.prefs.insert key value } :=
  identified.insert (.outside outside) identity registration

/-- The four strings of an account are saved under keys of their own. -/
theorem saveAccount_lookup (d : Device lib) (accountId phone token refreshToken : String) :
    ∀ value ∈ [accountId, phone, token, refreshToken], ∃ key,
      (d.saveAccount accountId phone token refreshToken).prefs.lookup key = some (.str value) := by
  simp only [List.forall_mem_cons, List.not_mem_nil, false_imp_iff, implies_true, and_true,
    Device.saveAccount, FinMap.lookup_insert_apply]
  exact ⟨⟨ACCOUNT_ID, rfl⟩, ⟨ACCOUNT_PHONE, rfl⟩, ⟨ACCOUNT_TOKEN, rfl⟩, ⟨ACCOUNT_REFRESH, rfl⟩⟩

theorem saveAccount_identified {memory : InMemoryStore lib}
    (identified : Identified ⟨d.prefs, memory⟩) (accountId phone token refreshToken : String) :
    Identified ⟨(d.saveAccount accountId phone token refreshToken).prefs, memory⟩ := by
  have saved := identified.save ACCOUNT_ID (.str accountId) (by decide) (by decide) (by decide)
  have saved := saved.save ACCOUNT_PHONE (.str phone) (by decide) (by decide) (by decide)
  have saved := saved.save ACCOUNT_TOKEN (.str token) (by decide) (by decide) (by decide)
  have saved := saved.save ACCOUNT_REFRESH (.str refreshToken) (by decide) (by decide) (by decide)
  exact saved.save ACCOUNT_DEVICE (.int d.localDeviceId) (by decide) (by decide) (by decide)

/-- A name that goes on behind another is not that name. -/
theorem named_of_goesOn {name : String} {slot : Slot} (goesOn : GoesOn name slot) :
    PersistentStore.named name slot = false := by
  cases slot with
  | session address =>
    simp only [PersistentStore.named, decide_eq_false_iff_not]
    rintro rfl
    have longer := List.IsPrefix.length_le goesOn
    rw [List.length_append, List.length_singleton] at longer
    omega
  | _ => rfl

/-- A step after which the device still survives was sparing. -/
theorem sparing_of_survives {a : Action lib} (sound : Sound d) (moved : d.step a = some d')
    (survives : Survives d') : Sparing d a := by
  have identified (memory : InMemoryStore lib) (held : d.store = some memory) :
      Identified ⟨d.prefs, memory⟩ := (sound.mirrors memory held).toIdentified
  cases a with
  | saveAccount accountId phone token refreshToken =>
    intro some_store value member
    obtain ⟨memory, held⟩ := Option.isSome_iff_exists.mp some_store
    obtain ⟨key, found⟩ := saveAccount_lookup d accountId phone token refreshToken value member
    cases moved
    exact survives.accepted held
      (saveAccount_identified (identified memory held) accountId phone token refreshToken) found
  | saveMessages json =>
    intro some_store
    obtain ⟨memory, held⟩ := Option.isSome_iff_exists.mp some_store
    have saved := (identified memory held).save MESSAGES (.str json) (by decide) (by decide)
      (by decide)
    cases moved
    exact survives.accepted held saved (AList.lookup_insert _)
  | saveReports json =>
    intro some_store
    obtain ⟨memory, held⟩ := Option.isSome_iff_exists.mp some_store
    have saved := (identified memory held).save REPORTS (.str json) (by decide) (by decide)
      (by decide)
    cases moved
    exact survives.accepted held saved (AList.lookup_insert _)
  | storeSession address record =>
    intro some_store unnamed
    obtain ⟨memory, held, rfl⟩ := Option.map_eq_some_iff.mp moved
    have saved := (identified memory held).storeRecord (.session address) record
    have loaded := (survives.records rfl saved).2 (.session address)
    have lost : ¬ Restorable (.session address) := not_not.mpr unnamed
    rw [if_neg lost] at loaded
    have kept := put_lookup memory (.session address) (.session address) record
    rw [if_pos rfl] at kept
    cases kept.symm.trans loaded
  | deleteAllSessions name =>
    intro memory held slot stored goesOn
    obtain ⟨memory', held', rfl⟩ := Option.map_eq_some_iff.mp moved
    obtain rfl : memory = memory' := Option.some.inj (held.symm.trans held')
    have saved := (identified memory held').deleteAllSessions name
    have loaded := (survives.records rfl saved).2 slot
    have removed : (after (SESSION ++ name ++ ":").toList slot.key.toList).isNone = false := by
      rw [← Option.not_isSome, (after_session_key name slot).mpr (.inr goesOn)]
      rfl
    simp only [PersistentStore.deleteAllSessions, FinMap.lookup_keep_apply, removed,
      named_of_goesOn goesOn] at loaded
    obtain ⟨bytes, found⟩ := Option.isSome_iff_exists.mp (AList.lookup_isSome.mpr stored)
    have gone : bytesOf ((d.prefs.lookup slot.key).filter fun _ => false) = none := by
      cases d.prefs.lookup slot.key <;> rfl
    rw [found, gone, ite_self] at loaded
    cases loaded
  | _ => trivial

/-- **The key store survives every sparing run.** In every run whose steps all
are sparing, a restart loads the identity, the prekeys, the signed and Kyber
prekeys and the sessions that were in memory, in whatever order it meets the
preferences; and the next step keeps this exactly when it is sparing. -/
theorem survives_iff_sparing (reached : (device lib).Reached Sparing d) :
    Survives d ∧ ∀ a d', d.step a = some d' → (Sparing d a ↔ Survives d') := by
  have sound := reached_sound reached
  refine ⟨sound.survives, ?_⟩
  intro a d' moved
  constructor
  · intro sparing
    exact (step_sound sound sparing moved).survives
  · exact sparing_of_survives sound moved

/-- A libsignal whose records are their serialized bytes. -/
def bytesSignal : Libsignal where
  Record _ := List UInt8
  KeyPair := List UInt8
  serialize record := record
  deserialize _ bytes := some bytes
  deserialize_serialize _ := rfl
  preKeyRecord id keyPair := id.toInt.toNat.toUInt8 :: keyPair
  takes id := 0 ≤ id.toInt
  nonneg_of_takes taken := of_decide_eq_true taken

/-- A device is registered, talks to a peer, mints a prekey and saves an empty history. -/
def quietDevice : List (Action bytesSignal) :=
  [ .create [1, 2, 3] 77 1,
    .storePreKey 1 [10],
    .storeSession ⟨"u2", 1⟩ [20, 21],
    .mintOneTimePreKeys 1 fun _ => [30],
    .removePreKey 1,
    .saveMessages "[]" ]

theorem quiet_device_survives : ∃ d, (device bytesSignal).Reached Sparing d ∧
    d.store.map (fun memory => (memory.records.lookup (.preKey 1), memory.records.lookup (.preKey 2),
      memory.records.lookup (.session ⟨"u2", 1⟩))) = some (none, some [2, 30], some [20, 21]) ∧
    Survives d ∧ ∀ a d', d.step a = some d' → (Sparing d a ↔ Survives d') := by
  have observed : ((device bytesSignal).checkedRun Sparing .fresh quietDevice).map (fun d =>
      d.store.map fun memory => (memory.records.lookup (.preKey 1),
        memory.records.lookup (.preKey 2), memory.records.lookup (.session ⟨"u2", 1⟩))) =
      some (some (none, some [2, 30], some [20, 21])) := by
    decide +kernel
  obtain ⟨d, ran, held⟩ := Option.map_eq_some_iff.mp observed
  have reached : (device bytesSignal).Reached Sparing d := .checkedRun (.start rfl) quietDevice ran
  exact ⟨d, reached, held, survives_iff_sparing reached⟩

/-- A history whose letters and digits, nine of them, are not base64. -/
def oneMessage : List (Action bytesSignal) :=
  [ .create [1, 2, 3] 77 1,
    .saveMessages "[\x7b\"id\":\"1\",\"body\":\"hi\"\x7d]" ]

theorem saved_history_bricks_device : ∃ d, (device bytesSignal).Reachable d ∧
    d.prefs.lookup MESSAGES = some (.str "[\x7b\"id\":\"1\",\"body\":\"hi\"\x7d]") ∧
    (load bytesSignal d.prefs d.prefs.entries).toOption.isNone ∧ ¬ Survives d := by
  have observed : ((device bytesSignal).run .fresh oneMessage).map (fun d =>
      (d.prefs.lookup MESSAGES, (load bytesSignal d.prefs d.prefs.entries).toOption.isNone)) =
      some (some (.str "[\x7b\"id\":\"1\",\"body\":\"hi\"\x7d]"), true) := by
    decide +kernel
  obtain ⟨d, reachable, seen⟩ := Machine.reachable_of_observed observed rfl
  obtain ⟨saved, throws⟩ := Prod.mk.inj seen
  refine ⟨d, reachable, saved, throws, ?_⟩
  intro survives
  obtain ⟨loaded, loads, -⟩ := survives d.prefs.entries (.refl _)
  rw [loads] at throws
  cases throws

end Hwfa.DeviceKeyStoreRestart
