import Mathlib.Data.List.AList

/-!
Finite maps as association lists without duplicate keys: the entries are in some
order, and `lookup` does not depend on it.  Beyond Mathlib's `AList` there is
the list of values, restriction to the entries that meet a test, and building a
map from records that name their own key.
-/

namespace Hwfa.Maps

universe u v

/-- A finite map from `κ` to `ν`. -/
abbrev FinMap (κ : Type u) (ν : Type v) := AList fun _ : κ => ν

namespace FinMap

variable {κ : Type u} {ν : Type v} [DecidableEq κ]

def values (m : FinMap κ ν) : List ν := m.entries.map fun entry => entry.2

theorem mem_values {m : FinMap κ ν} {x : ν} : x ∈ m.values ↔ ∃ k, m.lookup k = some x := by
  constructor
  · intro member
    obtain ⟨⟨k, y⟩, inside, rfl⟩ := List.mem_map.mp member
    exact ⟨k, AList.mem_lookup_iff.mpr inside⟩
  · rintro ⟨k, found⟩
    exact List.mem_map.mpr ⟨⟨k, x⟩, AList.mem_lookup_iff.mp found, rfl⟩

/-- Maps that answer alike have the same entries. -/
theorem entries_perm {m m' : FinMap κ ν} (same : ∀ k, m.lookup k = m'.lookup k) :
    m.entries.Perm m'.entries :=
  List.lookup_ext m.nodupKeys m'.nodupKeys fun k x => by
    rw [← AList.lookup, ← AList.lookup, same k]

theorem values_perm {m m' : FinMap κ ν} (same : ∀ k, m.lookup k = m'.lookup k) :
    m.values.Perm m'.values := (entries_perm same).map _

/-- The entries that pass a test. -/
def keep (m : FinMap κ ν) (p : κ → ν → Bool) : FinMap κ ν where
  entries := m.entries.filter fun entry => p entry.1 entry.2
  nodupKeys := m.nodupKeys.sublist List.filter_sublist

theorem lookup_keep {m : FinMap κ ν} {p : κ → ν → Bool} {k : κ} {x : ν} :
    (m.keep p).lookup k = some x ↔ m.lookup k = some x ∧ p k x := by
  rw [← Option.mem_def, AList.mem_lookup_iff, ← Option.mem_def, AList.mem_lookup_iff]
  exact List.mem_filter

theorem lookup_keep_apply (m : FinMap κ ν) (p : κ → ν → Bool) (k : κ) :
    (m.keep p).lookup k = (m.lookup k).filter (p k) := by
  apply Option.ext
  intro x
  rw [Option.filter_eq_some_iff]
  exact lookup_keep

theorem lookup_erase_apply (m : FinMap κ ν) (k k' : κ) :
    (m.erase k).lookup k' = if k' = k then none else m.lookup k' := by
  split
  · next same => rw [same, AList.lookup_erase]
  · next other => rw [AList.lookup_erase_ne other]

/-- The values once one is entered: it comes first. -/
theorem values_insert (m : FinMap κ ν) (k : κ) (x : ν) :
    values (m.insert k x) = x :: values (m.erase k) := rfl

theorem values_erase_sublist (m : FinMap κ ν) (k : κ) :
    (values (m.erase k)).Sublist m.values :=
  (List.kerase_sublist k m.entries).map _

theorem values_erase_of_none {m : FinMap κ ν} {k : κ} (fresh : m.lookup k = none) :
    values (m.erase k) = m.values := by
  have absent : k ∉ m.keys := AList.mem_keys.not.mp (AList.lookup_eq_none.mp fresh)
  exact congrArg (List.map fun entry => entry.2) (List.kerase_of_notMem_keys absent)

/-- One entry replaced in its place, or added at the end. -/
def putEntry (k : κ) (x : ν) : List (Σ _ : κ, ν) → List (Σ _ : κ, ν)
  | [] => [⟨k, x⟩]
  | entry :: rest => if k = entry.1 then ⟨k, x⟩ :: rest else entry :: putEntry k x rest

theorem dlookup_putEntry (k k' : κ) (x : ν) (entries : List (Σ _ : κ, ν)) :
    (putEntry k x entries).dlookup k' = if k' = k then some x else entries.dlookup k' := by
  induction entries with
  | nil =>
    unfold putEntry
    split
    · next same => rw [same, List.dlookup_cons_eq]
    · next other => exact List.dlookup_cons_ne _ _ other
  | cons entry rest ih =>
    obtain ⟨l, y⟩ := entry
    unfold putEntry
    by_cases here : k = l
    · subst here
      rw [if_pos rfl]
      split
      · next same => rw [same, List.dlookup_cons_eq]
      · next other => rw [List.dlookup_cons_ne _ _ other, List.dlookup_cons_ne _ _ other]
    · rw [if_neg here]
      by_cases first : k' = l
      · rw [first, List.dlookup_cons_eq, List.dlookup_cons_eq, if_neg (Ne.symm here)]
      · rw [List.dlookup_cons_ne _ _ first, List.dlookup_cons_ne _ _ first, ih]

theorem nodupKeys_putEntry (k : κ) (x : ν) {entries : List (Σ _ : κ, ν)}
    (distinct : entries.NodupKeys) : (putEntry k x entries).NodupKeys := by
  induction entries with
  | nil => exact List.nodupKeys_singleton _
  | cons entry rest ih =>
    obtain ⟨absent, distinct⟩ := List.nodupKeys_cons.mp distinct
    unfold putEntry
    split
    · next same => exact List.nodupKeys_cons.mpr ⟨same ▸ absent, distinct⟩
    · next other =>
      refine List.nodupKeys_cons.mpr ⟨?_, ih distinct⟩
      rw [← List.dlookup_eq_none, dlookup_putEntry, if_neg (Ne.symm other),
        List.dlookup_eq_none]
      exact absent

/-- The value of a key that is there is replaced in its place; a new key comes
last. -/
def put (m : FinMap κ ν) (k : κ) (x : ν) : FinMap κ ν :=
  ⟨putEntry k x m.entries, nodupKeys_putEntry k x m.nodupKeys⟩

theorem lookup_put_apply (m : FinMap κ ν) (k k' : κ) (x : ν) :
    (m.put k x).lookup k' = if k' = k then some x else m.lookup k' :=
  dlookup_putEntry k k' x m.entries

/-- A key that is there keeps its place. -/
theorem putEntry_append {k : κ} {x y : ν} {front back : List (Σ _ : κ, ν)}
    (distinct : (front ++ ⟨k, y⟩ :: back).NodupKeys) :
    putEntry k x (front ++ ⟨k, y⟩ :: back) = front ++ ⟨k, x⟩ :: back := by
  induction front with
  | nil =>
    unfold putEntry
    exact if_pos rfl
  | cons entry rest ih =>
    obtain ⟨absent, distinct⟩ := List.nodupKeys_cons.mp distinct
    have apart : ¬ k = entry.1 := by
      intro same
      apply absent
      rw [← same]
      exact List.mem_map.mpr ⟨⟨k, y⟩, List.mem_append_right _ List.mem_cons_self, rfl⟩
    rw [List.cons_append, putEntry, if_neg apart, ih distinct, List.cons_append]

theorem putEntry_putEntry (k : κ) (x y : ν) (entries : List (Σ _ : κ, ν)) :
    putEntry k y (putEntry k x entries) = putEntry k y entries := by
  induction entries with
  | nil =>
    unfold putEntry
    exact if_pos rfl
  | cons entry rest ih =>
    by_cases here : k = entry.1
    · rw [putEntry, if_pos here, putEntry, if_pos rfl, putEntry, if_pos here]
    · rw [putEntry, if_neg here, putEntry, if_neg here, putEntry, if_neg here, ih]

/-- The value put last stays. -/
theorem put_put (m : FinMap κ ν) (k : κ) (x y : ν) : (m.put k x).put k y = m.put k y :=
  AList.ext (putEntry_putEntry k x y m.entries)

/-- A value that is there already. -/
theorem put_self {m : FinMap κ ν} {k : κ} {x : ν} (found : m.lookup k = some x) : m.put k x = m := by
  obtain ⟨front, back, parts⟩ := List.append_of_mem (AList.mem_lookup_iff.mp found)
  have distinct := m.nodupKeys
  rw [parts] at distinct
  apply AList.ext
  calc putEntry k x m.entries
    _ = front ++ ⟨k, x⟩ :: back := by rw [parts, putEntry_append distinct]
    _ = m.entries := parts.symm

theorem mem_keys_put {m : FinMap κ ν} {k : κ} {x : ν} : k ∈ (m.put k x).keys := by
  have found : (m.put k x).lookup k = some x := by rw [lookup_put_apply, if_pos rfl]
  exact AList.mem_keys.mp (AList.lookup_isSome.mp (by rw [found]; rfl))

/-- Every value replaced by what a function makes of it. -/
def mapValues {ν' : Type v} (m : FinMap κ ν) (f : ν → ν') : FinMap κ ν' where
  entries := m.entries.map fun entry => ⟨entry.1, f entry.2⟩
  nodupKeys := by
    have same : (m.entries.map fun entry => (⟨entry.1, f entry.2⟩ : Σ _ : κ, ν')).keys =
        m.entries.keys := List.map_map
    rw [List.NodupKeys, same]
    exact m.nodupKeys

/-- A function that changes the value of one key only. -/
theorem put_eq_mapValues {m : FinMap κ ν} {k : κ} {x : ν} {front back : List (Σ _ : κ, ν)}
    {f : ν → ν} (parts : m.entries = front ++ ⟨k, x⟩ :: back)
    (kept : ∀ entry ∈ front ++ back, f entry.2 = entry.2) : m.put k (f x) = m.mapValues f := by
  have same {entries : List (Σ _ : κ, ν)} (among : ∀ entry ∈ entries, entry ∈ front ++ back) :
      (entries.map fun entry => (⟨entry.1, f entry.2⟩ : Σ _ : κ, ν)) = entries := by
    apply (List.map_congr_left fun entry member => ?_).trans (List.map_id _)
    rw [kept entry (among entry member)]
    rfl
  have distinct := m.nodupKeys
  rw [parts] at distinct
  apply AList.ext
  calc putEntry k (f x) m.entries
    _ = front ++ ⟨k, f x⟩ :: back := by rw [parts, putEntry_append distinct]
    _ = m.entries.map fun entry => ⟨entry.1, f entry.2⟩ := by
      rw [parts, List.map_append, List.map_cons, same fun _ => List.mem_append_left _,
        same fun _ => List.mem_append_right _]

/-- The map of a list of records, a later record replacing an earlier one under
the same key. -/
def ofRecords (key : ν → κ) (records : List ν) : FinMap κ ν :=
  records.foldl (fun m record => m.insert (key record) record) ∅

theorem lookup_insert_apply (m : FinMap κ ν) (k k' : κ) (x : ν) :
    (m.insert k x).lookup k' = if k' = k then some x else m.lookup k' := by
  split
  · next same => rw [same, AList.lookup_insert]
  · next other => rw [AList.lookup_insert_ne other]

/-- A value and the others. -/
theorem values_perm_cons {m : FinMap κ ν} {k : κ} {x : ν} (found : m.lookup k = some x) :
    (values m).Perm (x :: values (m.erase k)) := by
  have same : ∀ k', m.lookup k' = (m.insert k x).lookup k' := by
    intro k'
    rw [lookup_insert_apply]
    split
    · next same => rw [same, found]
    · rfl
  exact values_perm same

/-- How often something is in what the values hold, by one value and the others. -/
theorem count_values {α : Type v} [DecidableEq α] {f : ν → List α} {m : FinMap κ ν} {k : κ} {x : ν}
    (found : m.lookup k = some x) (a : α) : (m.values.flatMap f).count a =
      (f x).count a + ((values (m.erase k)).flatMap f).count a := by
  rw [((values_perm_cons found).flatMap_right f).count_eq a, List.flatMap_cons, List.count_append]

/-- A value put in the place of another one. -/
theorem count_values_insert {α : Type v} [DecidableEq α] {f : ν → List α} {m : FinMap κ ν} {k : κ}
    {x y : ν} (found : m.lookup k = some x) (a : α) :
    ((values (m.insert k y)).flatMap f).count a + (f x).count a =
      (m.values.flatMap f).count a + (f y).count a := by
  rw [values_insert, List.flatMap_cons, List.count_append, count_values found]
  omega

/-- A value under a new key. -/
theorem count_values_insert_new {α : Type v} [DecidableEq α] {f : ν → List α} {m : FinMap κ ν}
    {k : κ} {y : ν} (fresh : m.lookup k = none) (a : α) :
    ((values (m.insert k y)).flatMap f).count a = (f y).count a + (m.values.flatMap f).count a := by
  rw [values_insert, List.flatMap_cons, List.count_append, values_erase_of_none fresh]

/-- A record that was read back is one of the list, under its own key. -/
theorem lookup_ofRecords {key : ν → κ} {records : List ν} {k : κ} {x : ν}
    (found : (ofRecords key records).lookup k = some x) : x ∈ records ∧ key x = k := by
  suffices general : ∀ m : FinMap κ ν,
      (records.foldl (fun m record => m.insert (key record) record) m).lookup k = some x →
        m.lookup k = some x ∨ (x ∈ records ∧ key x = k) by
    rcases general ∅ found with nothing | inside
    · rw [AList.lookup_empty] at nothing
      cases nothing
    · exact inside
  clear found
  induction records with
  | nil => exact fun m found => .inl found
  | cons record rest ih =>
    intro m found
    rcases ih _ found with before | ⟨inside, keyed⟩
    · rw [lookup_insert_apply] at before
      split at before
      · next same =>
        cases before
        exact .inr ⟨List.mem_cons_self, same.symm⟩
      · exact .inl before
    · exact .inr ⟨List.mem_cons_of_mem _ inside, keyed⟩

/-- A record whose key no other record of the list has is found. -/
theorem lookup_ofRecords_of_unique {key : ν → κ} {records : List ν} {x : ν} (member : x ∈ records)
    (unique : ∀ y ∈ records, key y = key x → y = x) :
    (ofRecords key records).lookup (key x) = some x := by
  suffices general : ∀ m : FinMap κ ν, (x ∈ records ∨ m.lookup (key x) = some x) →
      (records.foldl (fun m record => m.insert (key record) record) m).lookup (key x) = some x from
    general ∅ (.inl member)
  clear member
  induction records with
  | nil =>
    rintro m (inside | found)
    · cases inside
    · exact found
  | cons record rest ih =>
    intro m known
    have later : ∀ y ∈ rest, key y = key x → y = x :=
      fun y inside => unique y (List.mem_cons_of_mem _ inside)
    refine ih later _ ?_
    by_cases same : key record = key x
    · have own := unique record List.mem_cons_self same
      exact .inr (by rw [lookup_insert_apply, if_pos same.symm, own])
    · rcases known with inside | found
      · rcases List.mem_cons.mp inside with rfl | inside
        · exact absurd rfl same
        · exact .inl inside
      · exact .inr (by rw [lookup_insert_apply, if_neg (Ne.symm same), found])

/-- Where no two records have one key, what is found is what is in the list. -/
theorem lookup_ofRecords_iff {key : ν → κ} {records : List ν} {k : κ} {x : ν}
    (distinct : ∀ x ∈ records, ∀ y ∈ records, key y = key x → y = x) :
    (ofRecords key records).lookup k = some x ↔ x ∈ records ∧ key x = k := by
  refine ⟨lookup_ofRecords, ?_⟩
  rintro ⟨member, rfl⟩
  exact lookup_ofRecords_of_unique member (distinct x member)

/-- Nor does their order matter then. -/
theorem lookup_ofRecords_perm {key : ν → κ} {records others : List ν} (perm : others.Perm records)
    (distinct : ∀ x ∈ records, ∀ y ∈ records, key y = key x → y = x) (k : κ) :
    (ofRecords key others).lookup k = (ofRecords key records).lookup k := by
  have distinct' : ∀ x ∈ others, ∀ y ∈ others, key y = key x → y = x :=
    fun x member y member' => distinct x (perm.mem_iff.mp member) y (perm.mem_iff.mp member')
  apply Option.ext
  intro x
  rw [lookup_ofRecords_iff distinct, lookup_ofRecords_iff distinct', perm.mem_iff]

end FinMap

end Hwfa.Maps
