import Mathlib.Algebra.Group.Nat.Defs
import Mathlib.Algebra.Group.Int.Defs
import Mathlib.Tactic.SplitIfs
import Hwfa.DeviceKeyStoreRestart
import Hwfa.NodeCryptoProvider

/-!
The ids of the one-time prekeys that the Android module mints.

`generateRegistration` numbers its prekeys from 1 on and leaves the high-water
mark alone; `mintOneTimePreKeys` goes on behind the higher of the mark and the
ids that are still in the preferences.  So the ids of an identity are those from
1 to some top at all times, and the next round starts within them exactly if the
prekeys that have been consumed were above both.
-/

namespace Hwfa.DeviceKeyStorePrekeys

open Hwfa.Machines Hwfa.Maps Hwfa.Texts Hwfa.Numbering Hwfa.DeviceKeyStore
open Hwfa.DeviceKeyStore.PersistentStore Hwfa.DeviceKeyStoreRestart

variable {lib : Libsignal}

/-! ### The phone -/

/-- `generateRegistration`: the device, and the loop over the one-time prekeys. -/
def generateRegistration (identityKeyPair : lib.Record .identityKeyPair)
    (registrationId deviceId oneTimeCount : Int32) (signed : lib.Record .signedPreKey)
    (kyber : lib.Record .kyberPreKey) (keyPairs : Nat → lib.KeyPair) : Device lib × Minting lib :=
  let d := Device.create identityKeyPair registrationId deviceId
  let s : PersistentStore lib :=
    { prefs := d.prefs
      memory := { identityKeyPair := identityKeyPair, registrationId := registrationId } }
  let s := (s.storeSignedPreKey 1 signed).storeKyberPreKey 1 kyber
  let m := s.mintFrom (0 + 1) keyPairs oneTimeCount.toInt.toNat
  ({ d with prefs := m.store.prefs, store := some m.store.memory }, m)

/-- A device and the one-time prekeys that its present identity has minted. -/
structure Ledger (lib : Libsignal) where
  device : Device lib
  minted : List (Int32 × lib.KeyPair) := []

inductive Event (lib : Libsignal) where
  | generateRegistration (identityKeyPair : lib.Record .identityKeyPair)
      (registrationId deviceId oneTimeCount : Int32) (signed : lib.Record .signedPreKey)
      (kyber : lib.Record .kyberPreKey) (keyPairs : Nat → lib.KeyPair)
  | replenishOneTimePreKeys (count : Int32) (keyPairs : Nat → lib.KeyPair)
  | reset
  /-- anything else that happens to the store -/
  | other (a : Action lib)

/-- The store's methods that are called by the two that mint only. -/
def Mints : Action lib → Bool
  | .create .. | .storePreKey .. | .mintOneTimePreKeys .. | .reset => true
  | _ => false

def Ledger.step (l : Ledger lib) : Event lib → Option (Ledger lib)
  | .generateRegistration identityKeyPair registrationId deviceId oneTimeCount signed kyber keyPairs =>
    let made := DeviceKeyStorePrekeys.generateRegistration identityKeyPair registrationId deviceId
      oneTimeCount signed kyber keyPairs
    some { device := made.1, minted := made.2.out }
  | .replenishOneTimePreKeys count keyPairs =>
    l.device.store.map fun memory =>
      let m := mintOneTimePreKeys ⟨l.device.prefs, memory⟩ count keyPairs
      { device := { l.device with prefs := m.store.prefs, store := some m.store.memory }
        minted := l.minted ++ m.out }
  | .reset => some { device := .fresh }
  | .other a => if Mints a then none else (l.device.step a).map fun d => { l with device := d }

/-- The runs of a phone from its installation on. -/
def phone (lib : Libsignal) : Machine (Ledger lib) (Event lib) where
  start l := l = { device := .fresh }
  step := Ledger.step

def ids (minted : List (Int32 × lib.KeyPair)) : List Int := minted.map fun p => p.1.toInt

/-- No two prekeys have one id. -/
def Distinct (l : Ledger lib) : Prop := (ids l.minted).Nodup

/-- The id that `mintOneTimePreKeys` goes on behind: the higher of the ids that are
still stored and of the high-water mark. -/
def highest (prefs : Prefs) : Int32 :=
  max (scanned prefs) ((getInt prefs PK_HIGH 0).toOption.getD 0)

/-- A round that is to mint anything starts behind every id that the identity has minted. -/
def Marked (l : Ledger lib) : Event lib → Prop
  | .replenishOneTimePreKeys count _ =>
    0 < count.toInt → ∀ p ∈ l.minted, p.1.toInt ≤ (highest l.device.prefs).toInt
  | _ => True

instance (l : Ledger lib) (e : Event lib) : Decidable (Marked l e) := by
  unfold Marked
  split <;> infer_instance

/-! ### What a round mints -/

variable {s : PersistentStore lib} {mark : Int32} {keyPairs : Nat → lib.KeyPair} {i k n : Nat}

/-- The ids of a round are counted modulo 2^32. -/
theorem toInt_id (mark : Int32) (small : i < 2 ^ 31) :
    (mark + 1 + Int32.ofNat i).toInt = (mark.toInt + 1 + i).bmod (2 ^ 32) := by
  rw [Int32.toInt_add, Int32.toInt_add, Int32.toInt_ofNat_of_lt small, Int.bmod_add_bmod]
  rfl

theorem toInt_id_of_fits (nonneg : 0 ≤ mark.toInt) (fits : mark.toInt + 1 + i < 2 ^ 31) :
    (mark + 1 + Int32.ofNat i).toInt = mark.toInt + 1 + i := by
  rw [toInt_id mark (by omega), Int.bmod_eq_of_le (by omega) (by omega)]

/-- The first id of a round, by its number. -/
theorem eq_succ {id : Int32} (nonneg : 0 ≤ mark.toInt) (follows : id.toInt = mark.toInt + 1) :
    id = mark + 1 := by
  have range := Int32.toInt_lt id
  have value := toInt_id_of_fits (i := 0) nonneg (by omega)
  have first : mark + 1 + Int32.ofNat 0 = mark + 1 := by simp
  apply Int32.toInt.inj
  rw [follows, ← first, value, Int.natCast_zero, Int.add_zero]

/-- The id behind the highest one is negative. -/
theorem id_overflows (nonneg : 0 ≤ mark.toInt) (full : mark.toInt + 1 + i = 2 ^ 31) :
    (mark + 1 + Int32.ofNat i).toInt < 0 := by
  rw [toInt_id mark (by omega), full]
  decide

/-- What `k` rounds behind `mark` have come to: the next `n` ids are minted, and
an id that is not taken has stopped the loop where these are fewer. -/
structure Rounds (s : PersistentStore lib) (mark : Int32) (k : Nat) (m : Minting lib) (n : Nat) :
    Prop where
  numbered : ids m.out = stretch (mark.toInt + 1) n
  taken : ∀ p ∈ m.out, lib.takes p.1 = true
  fits : mark.toInt + n < 2 ^ 31
  through : m.thrown = none → n = k
  stopped : m.thrown.isSome → n < k ∧ lib.takes (mark + 1 + Int32.ofNat n) = false
  stored : ∀ key value, m.store.prefs.lookup key = some value →
    s.prefs.lookup key = some value ∨ ∃ p ∈ m.out, key = (Slot.preKey p.1).key

theorem rounds_zero (s : PersistentStore lib) (mark : Int32) : Rounds s mark 0 { store := s } 0 where
  numbered := rfl
  taken := by simp
  fits := by
    have range := Int32.toInt_lt mark
    simpa using range
  through _ := rfl
  stopped thrown := by cases thrown
  stored _ _ found := .inl found

/-- One more round mints the next id, or the loop is over. -/
theorem Rounds.mint {m : Minting lib} (rounds : Rounds s mark k m n) (nonneg : 0 ≤ mark.toInt)
    (keyPair : lib.KeyPair) :
    ∃ n', Rounds s mark (k + 1) (m.mint (mark + 1 + Int32.ofNat k) keyPair) n' := by
  unfold Minting.mint
  split
  · next ended =>
    obtain ⟨fewer, refused⟩ := rounds.stopped ended
    exact ⟨n, { rounds with
      through := fun running => by rw [running] at ended; cases ended
      stopped := fun _ => ⟨by omega, refused⟩ }⟩
  · next running =>
    have reached : n = k := rounds.through (by simpa using running)
    subst reached
    split
    · next takes =>
      have positive := lib.nonneg_of_takes takes
      have fits : mark.toInt + 1 + n < 2 ^ 31 := by
        by_contra beyond
        have bound := rounds.fits
        have wrapped := id_overflows (i := n) nonneg (by omega)
        omega
      have id_eq := toInt_id_of_fits nonneg fits
      refine ⟨n + 1, ?_, ?_, by omega, fun _ => rfl, fun ended => absurd ended running, ?_⟩
      · rw [ids, List.map_append, ← ids, rounds.numbered]
        simp only [stretch, List.map_cons, List.map_nil, id_eq]
      · intro p member
        rcases List.mem_append.mp member with before | last
        · exact rounds.taken p before
        · rw [List.mem_singleton.mp last]
          exact takes
      · intro key value found
        simp only [storePreKey, storeRecord, FinMap.lookup_insert_apply] at found
        split at found
        · next same =>
          exact .inr ⟨_, List.mem_append_right _ (List.mem_singleton_self _), same⟩
        · rcases rounds.stored key value found with before | ⟨p, member, same⟩
          · exact .inl before
          · exact .inr ⟨p, List.mem_append_left _ member, same⟩
    · next refused =>
      exact ⟨n, { rounds with
        through := fun running => by cases running
        stopped := fun _ => ⟨by omega, by simpa using refused⟩ }⟩

theorem rounds_mintFrom (s : PersistentStore lib) (nonneg : 0 ≤ mark.toInt)
    (keyPairs : Nat → lib.KeyPair) (k : Nat) :
    ∃ n, Rounds s mark k (s.mintFrom (mark + 1) keyPairs k) n := by
  induction k with
  | zero => exact ⟨0, rounds_zero s mark⟩
  | succ k ih =>
    obtain ⟨n, rounds⟩ := ih
    exact rounds.mint nonneg (keyPairs k)

/-! ### What has been minted, and what the preferences say of it -/

/-- A preference that the next id is worked out from. -/
def Counts (key : String) : Prop := (after PRE.toList key.toList).isSome ∨ key = PK_HIGH

/-- The ids of an identity are those from 1 to `top`, and no preference says more. -/
structure Numbered (prefs : Prefs) (minted : List (Int32 × lib.KeyPair)) (top : Int) : Prop where
  filled : Filled (ids minted) top
  taken : ∀ p ∈ minted, lib.takes p.1 = true
  stored : ∀ key value, prefs.lookup key = some value →
    ∀ id, (after PRE.toList key.toList).bind toIntOrNull = some id → id.toInt ≤ top
  high : ∀ value, prefs.lookup PK_HIGH = some value →
    ∃ high : Int32, value = .int high ∧ 0 ≤ high.toInt ∧ high.toInt ≤ top

variable {prefs prefs' : Prefs} {minted : List (Int32 × lib.KeyPair)} {top : Int}

theorem numbered_nothing : Numbered (∅ : Prefs) ([] : List (Int32 × lib.KeyPair)) 0 where
  filled := filled_nil
  taken := by simp
  stored _ _ found := by cases found
  high _ found := by cases found

/-- No preference that counts is added or changed. -/
def Keeps (prefs prefs' : Prefs) : Prop :=
  ∀ key value, Counts key → prefs'.lookup key = some value → prefs.lookup key = some value

theorem Numbered.frame (numbered : Numbered prefs minted top) (kept : Keeps prefs prefs') :
    Numbered prefs' minted top where
  filled := numbered.filled
  taken := numbered.taken
  stored key value found id named := by
    have counts : Counts key := by
      obtain ⟨rest, begun, -⟩ := Option.bind_eq_some_iff.mp named
      exact .inl (by rw [begun]; rfl)
    exact numbered.stored key value (kept key value counts found) id named
  high value found := numbered.high value (kept _ value (.inr rfl) found)

theorem toInt_max (a b : Int32) : (max a b).toInt = max a.toInt b.toInt := by
  have unfolded : max a b = if a ≤ b then b else a := rfl
  rw [unfolded, Int.max_def]
  simp only [Int32.le_iff_toInt_le]
  split <;> rfl

theorem Numbered.scanned (numbered : Numbered prefs minted top) :
    0 ≤ (scanned prefs).toInt ∧ (scanned prefs).toInt ≤ top := by
  unfold PersistentStore.scanned
  refine List.foldlRecOn (motive := fun found : Int32 => 0 ≤ found.toInt ∧ found.toInt ≤ top)
    prefs.keys _ ⟨Int.le_refl 0, numbered.filled.1⟩ ?_
  intro found bounded key member
  split
  · next id named =>
    split
    · next higher =>
      obtain ⟨value, present⟩ := Option.isSome_iff_exists.mp (AList.lookup_isSome.mpr member)
      have bound := numbered.stored key value present id named
      rw [gt_iff_lt, Int32.lt_iff_toInt_lt] at higher
      exact ⟨by omega, bound⟩
    · exact bounded
  · exact bounded

/-- The mark that the next round goes on behind lies within the ids minted. -/
theorem Numbered.marked (numbered : Numbered prefs minted top) :
    (∃ high, getInt prefs PK_HIGH 0 = .ok high ∧
        highest prefs = max (PersistentStore.scanned prefs) high) ∧
      0 ≤ (highest prefs).toInt ∧ (highest prefs).toInt ≤ top := by
  have scanned := numbered.scanned
  unfold highest getInt
  cases held : prefs.lookup PK_HIGH with
  | none =>
    refine ⟨⟨0, rfl, rfl⟩, ?_⟩
    rw [toInt_max]
    change 0 ≤ max _ 0 ∧ max _ 0 ≤ _
    have nonneg := numbered.filled.1
    omega
  | some value =>
    obtain ⟨high, rfl, nonneg, bound⟩ := numbered.high value held
    refine ⟨⟨high, rfl, rfl⟩, ?_⟩
    rw [toInt_max]
    change 0 ≤ max _ high.toInt ∧ max _ high.toInt ≤ _
    omega

/-- A round goes on from the ids minted. -/
theorem Numbered.rounds {m : Minting lib} (numbered : Numbered s.prefs minted top)
    (rounds : Rounds s mark k m n) (nonneg : 0 ≤ mark.toInt) (within : mark.toInt ≤ top) :
    Numbered m.store.prefs (minted ++ m.out) (max top (mark.toInt + n)) := by
  have filled : Filled (ids minted ++ stretch (mark.toInt + 1) n) _ :=
    numbered.filled.append (by omega) (by omega)
  have top_eq : mark.toInt + 1 + n - 1 = mark.toInt + n := by omega
  rw [top_eq] at filled
  refine ⟨?_, ?_, ?_, ?_⟩
  · rw [ids, List.map_append, ← ids, ← ids, rounds.numbered]
    exact filled
  · intro p member
    exact (List.mem_append.mp member).elim (numbered.taken p) (rounds.taken p)
  · intro key value found id named
    rcases rounds.stored key value found with before | ⟨p, member, rfl⟩
    · exact Int.le_trans (numbered.stored key value before id named) (Int.le_max_left _ _)
    · rw [preKey_key, after_append, Option.bind_some, toIntOrNull_repr, Option.some.injEq] at named
      subst named
      have listed : p.1.toInt ∈ ids m.out := List.mem_map_of_mem member
      rw [rounds.numbered, mem_stretch] at listed
      omega
  · intro value found
    rcases rounds.stored _ value found with before | ⟨p, -, same⟩
    · obtain ⟨high, rfl, low, bound⟩ := numbered.high value before
      exact ⟨high, rfl, low, by omega⟩
    · have begun : (after PRE.toList PK_HIGH.toList).isSome := by
        rw [same, preKey_key, after_append]
        rfl
      exact absurd begun (by decide)

/-- The mark is written behind the loop. -/
theorem Numbered.putHigh (numbered : Numbered prefs minted top) {high : Int32}
    (nonneg : 0 ≤ high.toInt) (within : high.toInt ≤ top) :
    Numbered (prefs.insert PK_HIGH (.int high)) minted top where
  filled := numbered.filled
  taken := numbered.taken
  stored key value found id named := by
    rw [FinMap.lookup_insert_apply] at found
    split at found
    · next same =>
      subst same
      cases named
    · exact numbered.stored key value found id named
  high value found := by
    rw [FinMap.lookup_insert_apply, if_pos rfl] at found
    cases found
    exact ⟨high, rfl, nonneg, within⟩

/-- Rounds mint nothing only if there are none, or if the first id is not taken. -/
theorem Rounds.minted_none_iff {m : Minting lib} (rounds : Rounds s mark k m n)
    (nonneg : 0 ≤ mark.toInt) : n = 0 ↔ k = 0 ∨ lib.takes (mark + 1) = false := by
  have first : mark + 1 + Int32.ofNat 0 = mark + 1 := by simp
  constructor
  · rintro rfl
    by_cases stopped : m.thrown.isSome
    · right
      rw [← first]
      exact (rounds.stopped stopped).2
    · exact .inl (rounds.through (by simpa using stopped)).symm
  · rintro (nothing | refused)
    · by_cases stopped : m.thrown.isSome
      · have fewer := (rounds.stopped stopped).1
        omega
      · exact (rounds.through (by simpa using stopped)).trans nothing
    · by_contra some
      have listed : mark.toInt + 1 ∈ ids m.out := by
        rw [rounds.numbered, mem_stretch]
        omega
      obtain ⟨p, member, same⟩ := List.mem_map.mp listed
      have takes := rounds.taken p member
      rw [eq_succ nonneg same, refused] at takes
      cases takes

/-- What `mintOneTimePreKeys` comes to: it mints a stretch that begins behind the
mark, and leaves it out only if nothing was asked for or its first id is not taken. -/
theorem Numbered.mintOneTimePreKeys (numbered : Numbered s.prefs minted top) (count : Int32)
    (keyPairs : Nat → lib.KeyPair) :
    ∃ n, ids (s.mintOneTimePreKeys count keyPairs).out =
        stretch ((highest s.prefs).toInt + 1) n ∧
      Numbered (s.mintOneTimePreKeys count keyPairs).store.prefs
        (minted ++ (s.mintOneTimePreKeys count keyPairs).out)
        (max top ((highest s.prefs).toInt + n)) ∧
      (n = 0 ↔ count.toInt ≤ 0 ∨ lib.takes (highest s.prefs + 1) = false) := by
  obtain ⟨⟨high, read, mark_eq⟩, nonneg, within⟩ := numbered.marked
  unfold PersistentStore.mintOneTimePreKeys
  rw [read]
  dsimp only
  rw [← mark_eq]
  generalize highest s.prefs = mark at nonneg within ⊢
  by_cases negative : count < 0
  · have below : count.toInt < 0 := Int32.lt_iff_toInt_lt.mp negative
    rw [if_pos negative]
    refine ⟨0, rfl, ?_, ?_⟩
    · simpa [Int.max_eq_left within] using numbered
    · simp only [true_iff]
      omega
  · have above : 0 ≤ count.toInt := by
      rw [Int32.lt_iff_toInt_lt] at negative
      simpa using negative
    obtain ⟨n, rounds⟩ := rounds_mintFrom s nonneg keyPairs count.toInt.toNat
    have after := numbered.rounds rounds nonneg within
    rw [if_neg negative]
    refine ⟨n, ?_, ?_, ?_⟩
    · split
      · exact rounds.numbered
      · exact rounds.numbered
    · split
      · exact after
      · next through =>
        have all : n = count.toInt.toNat := rounds.through (by simpa using through)
        have fits := rounds.fits
        have high_eq : (mark + 1 + count - 1).toInt = mark.toInt + n := by
          have shifted : mark + 1 + count - 1 = mark + count := by
            rw [Int32.add_assoc, Int32.add_comm 1, ← Int32.add_assoc, Int32.add_sub_cancel]
          rw [shifted, Int32.toInt_add, Int.bmod_eq_of_le (by omega) (by omega)]
          omega
        have low : 0 ≤ (mark + 1 + count - 1).toInt := by omega
        have bound : (mark + 1 + count - 1).toInt ≤ max top (mark.toInt + n) := by omega
        exact after.putHigh low bound
    · rw [rounds.minted_none_iff nonneg]
      exact or_congr (by omega) Iff.rfl

/-! ### The other methods of the module -/

instance (key : String) : Decidable (Counts key) := by
  unfold Counts
  infer_instance

theorem Keeps.refl (prefs : Prefs) : Keeps prefs prefs := fun _ _ _ found => found

theorem Keeps.trans {prefs'' : Prefs} (first : Keeps prefs prefs') (second : Keeps prefs' prefs'') :
    Keeps prefs prefs'' :=
  fun key value counts found => first key value counts (second key value counts found)

theorem keeps_insert (prefs : Prefs) (key : String) (value : PrefValue) (aside : ¬ Counts key) :
    Keeps prefs (prefs.insert key value) := by
  intro key' value' counts found
  rw [FinMap.lookup_insert_apply] at found
  split at found
  · next same =>
    subst same
    exact absurd counts aside
  · exact found

theorem keeps_erase (prefs : Prefs) (key : String) : Keeps prefs (prefs.erase key) := by
  intro key' value _ found
  rw [FinMap.lookup_erase_apply] at found
  split at found
  · cases found
  · exact found

/-- The keys of the other kinds of records do not count. -/
theorem not_counts_front {front : String} {key : String} {rest : List Char}
    (begun : key.toList = front.toList ++ rest) (apart : after PRE.toList key.toList = none)
    (other : after front.toList PK_HIGH.toList = none) : ¬ Counts key := by
  rintro (prekey | rfl)
  · rw [apart] at prekey
    cases prekey
  · rw [begun, after_append] at other
    cases other

theorem not_counts_signed (id : Int32) : ¬ Counts (Slot.signedPreKey id).key := by
  refine not_counts_front (signedPreKey_key id) ?_ (by decide)
  rw [signedPreKey_key]
  exact (after_front _).1

theorem not_counts_kyber (id : Int32) : ¬ Counts (Slot.kyberPreKey id).key := by
  refine not_counts_front (kyberPreKey_key id) ?_ (by decide)
  rw [kyberPreKey_key]
  exact (after_front _).2.1

theorem not_counts_session (address : SignalProtocolAddress) :
    ¬ Counts (Slot.session address).key := by
  refine not_counts_front (session_key address) ?_ (by decide)
  rw [session_key]
  exact (after_front _).2.2.1

variable {d d' : Device lib} {a : Action lib}

theorem keeps_call (method : PersistentStore lib → PersistentStore lib)
    (moved : d.call method = some d') (kept : ∀ s : PersistentStore lib, Keeps s.prefs (method s).prefs) :
    Keeps d.prefs d'.prefs := by
  obtain ⟨memory, -, rfl⟩ := Option.map_eq_some_iff.mp moved
  exact kept ⟨d.prefs, memory⟩

theorem restart_prefs {order : Entries} (restarted : (d.restart order).toOption = some d') :
    d'.prefs = d.prefs := by
  simp only [Device.restart, bind, Except.bind] at restarted
  split at restarted
  · cases restarted
  · split at restarted
    · cases restarted
    · cases restarted
      rfl

/-- A method that mints nothing leaves alone what counts, or removes it. -/
theorem step_keeps (plain : Mints a = false) (moved : d.step a = some d') :
    Keeps d.prefs d'.prefs := by
  cases a with
  | create | storePreKey | mintOneTimePreKeys | reset => cases plain
  | removePreKey id =>
    exact keeps_call (·.removePreKey id) moved fun s => keeps_erase s.prefs _
  | storeSignedPreKey id record =>
    exact keeps_call (·.storeSignedPreKey id record) moved fun s =>
      keeps_insert s.prefs _ _ (not_counts_signed id)
  | removeSignedPreKey id =>
    exact keeps_call (·.removeSignedPreKey id) moved fun s => keeps_erase s.prefs _
  | storeKyberPreKey id record =>
    exact keeps_call (·.storeKyberPreKey id record) moved fun s =>
      keeps_insert s.prefs _ _ (not_counts_kyber id)
  | storeSession address record =>
    exact keeps_call (·.storeSession address record) moved fun s =>
      keeps_insert s.prefs _ _ (not_counts_session address)
  | deleteSession address =>
    exact keeps_call (·.deleteSession address) moved fun s => keeps_erase s.prefs _
  | deleteAllSessions name =>
    refine keeps_call (·.deleteAllSessions name) moved fun s key value _ found => ?_
    exact (FinMap.lookup_keep.mp found).1
  | saveAccount accountId phone token refreshToken =>
    cases moved
    have saved := keeps_insert d.prefs ACCOUNT_ID (.str accountId) (by decide)
    have saved := saved.trans (keeps_insert _ ACCOUNT_PHONE (.str phone) (by decide))
    have saved := saved.trans (keeps_insert _ ACCOUNT_TOKEN (.str token) (by decide))
    have saved := saved.trans (keeps_insert _ ACCOUNT_REFRESH (.str refreshToken) (by decide))
    exact saved.trans (keeps_insert _ ACCOUNT_DEVICE (.int d.localDeviceId) (by decide))
  | saveMessages json =>
    cases moved
    exact keeps_insert _ _ _ (by decide)
  | saveReports json =>
    cases moved
    exact keeps_insert _ _ _ (by decide)
  | restart order =>
    simp only [Device.step, Option.ite_none_right_eq_some] at moved
    rw [restart_prefs moved.2]
    exact .refl _

/-- A registration numbers its prekeys from 1 on. -/
theorem numbered_generateRegistration (identityKeyPair : lib.Record .identityKeyPair)
    (registrationId deviceId oneTimeCount : Int32) (signed : lib.Record .signedPreKey)
    (kyber : lib.Record .kyberPreKey) (keyPairs : Nat → lib.KeyPair) :
    ∃ n, ids (DeviceKeyStorePrekeys.generateRegistration identityKeyPair registrationId deviceId
        oneTimeCount signed kyber keyPairs).2.out = stretch 1 n ∧
      ∃ top, Numbered (DeviceKeyStorePrekeys.generateRegistration identityKeyPair registrationId
        deviceId oneTimeCount signed kyber keyPairs).1.prefs
        (DeviceKeyStorePrekeys.generateRegistration identityKeyPair registrationId deviceId
          oneTimeCount signed kyber keyPairs).2.out top := by
  unfold DeviceKeyStorePrekeys.generateRegistration
  dsimp only
  have nothing : Numbered (storeKyberPreKey (storeSignedPreKey
      { prefs := (Device.create identityKeyPair registrationId deviceId).prefs
        memory := { identityKeyPair := identityKeyPair, registrationId := registrationId } }
      1 signed) 1 kyber).prefs ([] : List (Int32 × lib.KeyPair)) 0 := by
    have created : Keeps ∅ (Device.create identityKeyPair registrationId deviceId : Device lib).prefs :=
      (keeps_insert ∅ _ _ (by decide)).trans (keeps_insert _ _ _ (by decide))
    exact numbered_nothing.frame (created.trans ((keeps_insert _ _ _ (not_counts_signed 1)).trans
      (keeps_insert _ _ _ (not_counts_kyber 1))))
  have nonneg : 0 ≤ (0 : Int32).toInt := Int.le_refl 0
  obtain ⟨n, rounds⟩ := rounds_mintFrom _ nonneg keyPairs
    oneTimeCount.toInt.toNat
  exact ⟨n, rounds.numbered, _, nothing.rounds rounds (Int.le_refl 0) (Int.le_refl 0)⟩

/-! ### Runs -/

variable {l l' : Ledger lib} {e : Event lib}

/-- In every state the ids of the identity are those from 1 to some top. -/
theorem reachable_numbered (reachable : (phone lib).Reachable l) :
    ∃ top, Numbered l.device.prefs l.minted top := by
  refine reachable.invariant (fun l => ∃ top, Numbered l.device.prefs l.minted top) ?_ ?_
  · rintro l rfl
    exact ⟨0, numbered_nothing⟩
  · rintro l e l' ⟨top, numbered⟩ - moved
    cases e with
    | generateRegistration identityKeyPair registrationId deviceId oneTimeCount signed kyber keyPairs =>
      cases moved
      exact (numbered_generateRegistration identityKeyPair registrationId deviceId oneTimeCount
        signed kyber keyPairs).elim fun _ made => made.2
    | replenishOneTimePreKeys count keyPairs =>
      obtain ⟨memory, -, rfl⟩ := Option.map_eq_some_iff.mp moved
      obtain ⟨n, -, after, -⟩ := Numbered.mintOneTimePreKeys (s := ⟨l.device.prefs, memory⟩)
        numbered count keyPairs
      exact ⟨_, after⟩
    | reset =>
      cases moved
      exact ⟨0, numbered_nothing⟩
    | other a =>
      simp only [phone, Ledger.step] at moved
      split at moved
      · cases moved
      · next plain =>
        obtain ⟨d, stepped, rfl⟩ := Option.map_eq_some_iff.mp moved
        exact ⟨top, numbered.frame (step_keeps (by simpa using plain) stepped)⟩

/-- A step from distinct ids keeps them distinct exactly if it is marked. -/
theorem step_distinct (reachable : (phone lib).Reachable l) (distinct : Distinct l)
    (moved : l.step e = some l') : Distinct l' ↔ Marked l e := by
  obtain ⟨top, numbered⟩ := reachable_numbered reachable
  cases e with
  | generateRegistration identityKeyPair registrationId deviceId oneTimeCount signed kyber keyPairs =>
    cases moved
    obtain ⟨n, made, -⟩ := numbered_generateRegistration identityKeyPair registrationId deviceId
      oneTimeCount signed kyber keyPairs
    refine iff_of_true ?_ trivial
    unfold Distinct
    rw [made]
    exact nodup_stretch 1 n
  | replenishOneTimePreKeys count keyPairs =>
    obtain ⟨memory, -, rfl⟩ := Option.map_eq_some_iff.mp moved
    obtain ⟨n, made, -, nothing⟩ := Numbered.mintOneTimePreKeys (s := ⟨l.device.prefs, memory⟩)
      numbered count keyPairs
    dsimp only at made nothing
    obtain ⟨-, nonneg, within⟩ := numbered.marked
    unfold Distinct at distinct ⊢
    dsimp only
    rw [ids, List.map_append, ← ids, ← ids, made]
    constructor
    · intro distinct' asked p member
      by_contra above
      have low : (highest l.device.prefs).toInt + 1 ∈ ids l.minted := by
        rw [numbered.filled.2]
        have listed := (numbered.filled.2 _).mp (List.mem_map_of_mem member)
        omega
      obtain ⟨q, known, same⟩ := List.mem_map.mp low
      have positive : 0 < n := by
        rw [Nat.pos_iff_ne_zero, ne_eq, nothing]
        rintro (unasked | refused)
        · omega
        · have taken := numbered.taken q known
          rw [eq_succ nonneg same, refused] at taken
          cases taken
      have inside : (highest l.device.prefs).toInt + 1 ≤ top := ((numbered.filled.2 _).mp low).2
      exact numbered.filled.repeats (by omega) inside positive distinct'
    · intro marked
      by_cases asked : 0 < count.toInt
      · refine nodup_append_stretch distinct fun i listed => ?_
        obtain ⟨p, member, rfl⟩ := List.mem_map.mp listed
        have below := marked asked p member
        omega
      · rw [nothing.mpr (.inl (by omega))]
        simpa [stretch] using distinct
  | reset =>
    cases moved
    exact iff_of_true List.nodup_nil trivial
  | other a =>
    simp only [Ledger.step] at moved
    split at moved
    · cases moved
    · obtain ⟨d, -, rfl⟩ := Option.map_eq_some_iff.mp moved
      exact iff_of_true distinct trivial

/-- The runs of marked steps are those that never mint an id twice. -/
theorem reached_marked_iff : (phone lib).Reached Marked l ↔ (phone lib).Throughout Distinct l := by
  refine Machine.reached_iff_throughout ?_ fun _ _ _ reachable distinct moved =>
    step_distinct reachable distinct moved
  rintro l rfl
  exact List.nodup_nil

theorem distinct_nothing (started : (phone lib).start l) : Distinct l := by
  cases started
  exact List.nodup_nil

/-- **No id of a one-time prekey is given out twice.** In every run of the phone, and
in every run of the Node provider, in which each round that is to mint anything goes
on behind every id that the identity has minted, all ids minted for the identity
are distinct, so that no id is the id of two keys. -/
theorem prekey_ids_are_given_out_once {node : NodeCryptoProvider.Libsignal}
    {n : NodeCryptoProvider.Ledger node} (onPhone : (phone lib).Reached Marked l)
    (onNode : (NodeCryptoProvider.node node).Reached NodeCryptoProvider.Marked n) :
    (Distinct l ∧ ∀ p ∈ l.minted, ∀ q ∈ l.minted, p.1 = q.1 → p = q) ∧
      NodeCryptoProvider.Distinct n ∧ ∀ p ∈ n.minted, ∀ q ∈ n.minted, p.1 = q.1 → p = q := by
  have phoneDistinct : Distinct l :=
    (reached_marked_iff.mp onPhone).holds fun _ started => distinct_nothing started
  have nodeDistinct := NodeCryptoProvider.reached_distinct onNode
  refine ⟨⟨phoneDistinct, ?_⟩, nodeDistinct, ?_⟩
  · intro p member q member' same
    exact List.inj_on_of_nodup_map phoneDistinct member member' (congrArg Int32.toInt same)
  · intro p member q member' same
    exact List.inj_on_of_nodup_map nodeDistinct member member' same

/-- A registration with two prekeys. -/
def registered : Event bytesSignal :=
  .generateRegistration [1, 2, 3] 77 1 2 [4] [5] fun i => [10 + i.toUInt8]

/-- A libsignal for Node whose keys are numbers and whose ids have 32 bits. -/
def numberSignal : NodeCryptoProvider.Libsignal where
  PrivateKey := Nat
  takes id := 0 ≤ id ∧ id < 2 ^ 32

def onNode (events : List (NodeCryptoProvider.Event numberSignal)) :
    List (NodeCryptoProvider.Event numberSignal) :=
  .generateRegistration 2 id :: events ++ [.replenishOneTimePreKeys 1 fun _ => (30 : Nat)]

def keys (l : Ledger bytesSignal) : List (Int32 × List UInt8) := l.minted

def nodeKeys (n : NodeCryptoProvider.Ledger numberSignal) : List (Int × Nat) := n.minted

/-- The first prekey is used, and the pool is filled up. -/
theorem first_prekey_is_used : ∃ l n, (phone bytesSignal).Reached Marked l ∧
    (NodeCryptoProvider.node numberSignal).Reached NodeCryptoProvider.Marked n ∧
    keys l = [(1, [10]), (2, [11]), (3, [30])] ∧ nodeKeys n = [(1, 0), (2, 1), (3, 30)] ∧
    (Distinct l ∧ ∀ p ∈ l.minted, ∀ q ∈ l.minted, p.1 = q.1 → p = q) ∧
      NodeCryptoProvider.Distinct n ∧ ∀ p ∈ n.minted, ∀ q ∈ n.minted, p.1 = q.1 → p = q := by
  have seen : ((phone bytesSignal).checkedRun Marked { device := .fresh }
      [registered, .other (.removePreKey 1), .replenishOneTimePreKeys 1 fun _ => [30]]).map keys =
        some [(1, [10]), (2, [11]), (3, [30])] := by decide +kernel
  have seenOnNode : ((NodeCryptoProvider.node numberSignal).checkedRun NodeCryptoProvider.Marked {}
      (onNode [.removePreKey 1])).map nodeKeys = some [(1, 0), (2, 1), (3, 30)] := by
    decide +kernel
  obtain ⟨l, reached, minted⟩ := Machine.reached_of_observed seen (.start rfl)
  obtain ⟨n, reached', minted'⟩ := Machine.reached_of_observed seenOnNode (.start rfl)
  exact ⟨l, n, reached, reached', minted, minted', prekey_ids_are_given_out_once reached reached'⟩

/-- On the phone the last prekey of the registration is used before the pool is
filled up; on Node a round asks for fewer than no prekeys. -/
theorem last_prekey_is_minted_again :
    (∃ l, (phone bytesSignal).Reachable l ∧ keys l = [(1, [10]), (2, [11]), (2, [30])] ∧
      ¬ Distinct l) ∧
    ∃ n, (NodeCryptoProvider.node numberSignal).Reachable n ∧
      nodeKeys n = [(1, 0), (2, 1), (2, 30)] ∧ ¬ NodeCryptoProvider.Distinct n := by
  have seen : ((phone bytesSignal).run { device := .fresh }
      [registered, .other (.removePreKey 2), .replenishOneTimePreKeys 1 fun _ => [30]]).map keys =
        some [(1, [10]), (2, [11]), (2, [30])] := by decide +kernel
  have seenOnNode : ((NodeCryptoProvider.node numberSignal).run {}
      (onNode [.replenishOneTimePreKeys (-1) id])).map nodeKeys =
        some [(1, 0), (2, 1), (2, 30)] := by decide +kernel
  obtain ⟨l, reachable, minted⟩ := Machine.reachable_of_observed seen rfl
  obtain ⟨n, reachable', minted'⟩ := Machine.reachable_of_observed seenOnNode rfl
  refine ⟨⟨l, reachable, minted, ?_⟩, n, reachable', minted', ?_⟩
  · have same : ids l.minted = [1, 2, 2] := by
      change (keys l).map (fun p => p.1.toInt) = _
      rw [minted]
      decide
    rw [Distinct, same]
    decide
  · have same : NodeCryptoProvider.ids n.minted = [1, 2, 2] := by
      change (nodeKeys n).map (fun p => p.1) = _
      rw [minted']
      decide
    rw [NodeCryptoProvider.Distinct, same]
    decide

end Hwfa.DeviceKeyStorePrekeys
