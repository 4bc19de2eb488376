/-!
Texts as lists of characters: what comes after a given beginning, and the two
sides of the last separator.
-/

namespace Hwfa.Texts

/-- What comes after `front`, if the text begins with it. -/
def after : List Char → List Char → Option (List Char)
  | [], text => some text
  | c :: front, d :: text => if c = d then after front text else none
  | _ :: _, [] => none

/-- The two sides of the last separator. -/
def splitAtLast (sep : Char) : List Char → Option (List Char × List Char)
  | [] => none
  | c :: text =>
    match splitAtLast sep text with
    | some (front, back) => some (c :: front, back)
    | none => if c = sep then some ([], text) else none

theorem after_append (front text : List Char) : after front (front ++ text) = some text := by
  induction front with
  | nil => rfl
  | cons c front ih => simpa [after] using ih

theorem after_eq_some_iff {front text rest : List Char} :
    after front text = some rest ↔ text = front ++ rest := by
  constructor
  · intro began
    induction front generalizing text with
    | nil => simpa [after] using began
    | cons c front ih =>
      cases text with
      | nil => cases began
      | cons d text =>
        unfold after at began
        split at began
        · next same => rw [same, ih began, List.cons_append]
        · cases began
  · rintro rfl
    exact after_append front rest

theorem after_append_left (front more text : List Char) :
    after (front ++ more) text = (after front text).bind (after more) := by
  induction front generalizing text with
  | nil => rfl
  | cons c front ih =>
    cases text with
    | nil => rfl
    | cons d text =>
      simp only [List.cons_append, after]
      split
      · exact ih text
      · rfl

theorem after_isSome_iff {front text : List Char} :
    (after front text).isSome ↔ front <+: text := by
  rw [Option.isSome_iff_exists]
  exact exists_congr fun rest => after_eq_some_iff.trans eq_comm

theorem splitAtLast_eq_none {sep : Char} {text : List Char} (absent : sep ∉ text) :
    splitAtLast sep text = none := by
  induction text with
  | nil => rfl
  | cons c text ih =>
    simp only [List.mem_cons, not_or] at absent
    simp [splitAtLast, ih absent.2, Ne.symm absent.1]

/-- The last separator is the one with none behind it. -/
theorem splitAtLast_append {sep : Char} (front : List Char) {back : List Char}
    (absent : sep ∉ back) : splitAtLast sep (front ++ sep :: back) = some (front, back) := by
  induction front with
  | nil => simp [splitAtLast, splitAtLast_eq_none absent]
  | cons c front ih => simp [splitAtLast, ih]

/-- The last separator splits a text in one way only. -/
theorem split_at_last {sep : Char} {l l' r r' : List Char} (absent : sep ∉ r)
    (absent' : sep ∉ r') (same : l ++ sep :: r = l' ++ sep :: r') : l = l' ∧ r = r' := by
  have split := splitAtLast_append l absent
  rw [same, splitAtLast_append l' absent'] at split
  cases split
  exact ⟨rfl, rfl⟩

/-- A text that begins with `front` and a separator has `front` for the whole of
its front part, or goes on behind it, when its back part has no separator. -/
theorem append_sep_prefix_iff {sep : Char} {front l r : List Char} (absent : sep ∉ r) :
    (front ++ [sep]) <+: (l ++ sep :: r) ↔ front = l ∨ (front ++ [sep]) <+: l := by
  constructor
  · rintro ⟨rest, same⟩
    rw [List.append_assoc, List.singleton_append, List.append_eq_append_iff] at same
    rcases same with ⟨mid, rfl, right⟩ | ⟨mid, rfl, right⟩
    · cases mid with
      | nil => exact .inl (List.append_nil front).symm
      | cons c mid =>
        obtain ⟨rfl, rfl⟩ := List.cons.inj right
        exact .inr ⟨mid, by simp⟩
    · cases mid with
      | nil => exact .inl (List.append_nil l)
      | cons c mid =>
        obtain ⟨rfl, rfl⟩ := List.cons.inj right
        exact absurd (by simp) absent
  · rintro (rfl | ⟨rest, rfl⟩)
    · exact ⟨r, by simp⟩
    · exact ⟨rest ++ sep :: r, by simp⟩

end Hwfa.Texts
