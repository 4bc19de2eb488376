import Hwfa.ConversationInbound
import Mathlib.Data.List.Sort

/-!
How a phone number is brought to E.164 (`apps/mobile/src/contacts/normalize.ts`).

The calling code is the part of the user's own number that says its country; an
empty calling code counts as none, as the empty string does in JavaScript.
-/

namespace Hwfa.PhoneNormalization

open Hwfa.Json Hwfa.ConversationInbound

/-- Calling codes by which a user's country is told. -/
def KNOWN_CALLING_CODES : List Text :=
  ["234", "254", "233", "256", "255", "250", "260", "263", "27", "212", "20", "251", "225", "221",
    "44", "1", "91", "971", "966"].map utf16

def plus : UInt16 := unit '+'

def zero : UInt16 := unit '0'

/-- `callingCodeOf`; the sort is stable and puts the longer codes first. -/
def callingCodeOf (e164 : Text) : Option Text :=
  let digits := e164.filter isDigit
  let byLength := KNOWN_CALLING_CODES.insertionSort fun a b => b.length ≤ a.length
  byLength.find? fun code => code.isPrefixOf digits

/-- The calling code, if one is given. -/
def given (defaultCallingCode : Option Text) : Option Text := defaultCallingCode.filter (· ≠ [])

/-- `normalizeE164` up to the check of the number of digits. -/
def spelled (raw : Text) (defaultCallingCode : Option Text) : Text :=
  let s := (trim raw).filter fun u => isDigit u || u = plus
  if [plus].isPrefixOf s then plus :: (s.drop 1).filter isDigit
  else if [zero, zero].isPrefixOf s then plus :: s.drop 2
  else match given defaultCallingCode with
    | some code => if [zero].isPrefixOf s then plus :: (code ++ s.drop 1) else plus :: (code ++ s)
    | none => plus :: s

def normalizeE164 (raw : Text) (defaultCallingCode : Option Text) : Option Text :=
  if raw = [] then none
  else
    let s := spelled raw defaultCallingCode
    let digits := s.drop 1
    if digits.length < 7 ∨ 15 < digits.length then none else some s

/-- An E.164 number is not the empty text. -/
theorem normalizeE164_ne_nil {raw e164 : Text} {code : Option Text}
    (normal : normalizeE164 raw code = some e164) : e164 ≠ [] := by
  unfold normalizeE164 at normal
  split at normal
  · cases normal
  · dsimp only at normal
    split at normal
    · cases normal
    · rintro rfl
      rename_i bounds
      rw [Option.some.inj normal] at bounds
      exact bounds (.inl (by decide))

example : normalizeE164 (utf16 "0801 234-5678") (some (utf16 "234")) =
    some (utf16 "+2348012345678") := by
  decide +kernel

example : callingCodeOf (utf16 "+234 801") = some (utf16 "234") := by decide +kernel

/-! ### Whether the form is canonical -/

/-- What is kept of a number as it was typed. -/
def stripped (raw : Text) : Text := raw.filter fun u => isDigit u || u = plus

/-- An E.164 number, which is its own form under every calling code. -/
structure Canonical (raw : Text) (defaultCallingCode : Option Text) : Prop where
  shape : ∀ e164 ∈ normalizeE164 raw defaultCallingCode, ∃ digits, e164 = plus :: digits ∧
    (∀ u ∈ digits, isDigit u) ∧ 7 ≤ digits.length ∧ digits.length ≤ 15
  again : ∀ e164 ∈ normalizeE164 raw defaultCallingCode, ∀ code, normalizeE164 e164 code = some e164

/-- How many characters stand behind the plus of a number that was typed without one in
front. -/
def bodyLength (raw : Text) (defaultCallingCode : Option Text) : Nat :=
  let s := stripped raw
  if [zero, zero].isPrefixOf s then (s.drop 2).length
  else match given defaultCallingCode with
    | some code => code.length + (if [zero].isPrefixOf s then s.drop 1 else s).length
    | none => s.length

/-- A plus stands in front, or nowhere, or the number is refused for its length. -/
def Clean (raw : Text) (defaultCallingCode : Option Text) : Prop :=
  (stripped raw).head? = some plus ∨ plus ∉ stripped raw ∨
    bodyLength raw defaultCallingCode < 7 ∨ 15 < bodyLength raw defaultCallingCode

variable {raw code n : Text} {defaultCallingCode : Option Text}

theorem filter_dropWhile {p q : UInt16 → Bool} (apart : ∀ u, q u = true → p u = false) (t : Text) :
    (t.dropWhile q).filter p = t.filter p := by
  induction t with
  | nil => rfl
  | cons u rest ih =>
    rw [List.dropWhile_cons]
    split
    · next skipped => rw [ih, List.filter_cons, apart u skipped, if_neg Bool.false_ne_true]
    · rfl

/-- White space is neither a digit nor a plus. -/
theorem not_kept_of_space {u : UInt16} (space : isSpace u = true) :
    (isDigit u || decide (u = plus)) = false := by
  simp only [isSpace, List.mem_cons, List.not_mem_nil, or_false, Bool.or_eq_true,
    decide_eq_true_eq, Bool.and_eq_true] at space
  rcases space with named | ⟨low, -⟩
  · rcases named with rfl | rfl | rfl | rfl | rfl | rfl | rfl | rfl | rfl | rfl | rfl | rfl | rfl |
      rfl <;> rfl
  · have high : 0x2000 ≤ u.toNat := UInt16.le_iff_toNat_le.mp low
    have above : ¬ u ≤ unit '9' := by
      intro digit
      have small : u.toNat ≤ 57 := UInt16.le_iff_toNat_le.mp digit
      omega
    have other : u ≠ plus := by
      rintro rfl
      exact absurd high (by decide)
    unfold isDigit
    rw [decide_eq_false above, decide_eq_false other, Bool.and_false, Bool.or_false]

theorem stripped_trim (raw : Text) : stripped (trim raw) = stripped raw := by
  have apart (u : UInt16) : isSpace u = true → (isDigit u || decide (u = plus)) = false :=
    not_kept_of_space
  unfold stripped trim
  rw [List.filter_reverse, filter_dropWhile apart, ← List.filter_reverse, List.reverse_reverse,
    filter_dropWhile apart]

/-- The form, from what is kept. -/
theorem spelled_eq (raw : Text) (defaultCallingCode : Option Text) :
    spelled raw defaultCallingCode =
      if [plus].isPrefixOf (stripped raw) then plus :: ((stripped raw).drop 1).filter isDigit
      else if [zero, zero].isPrefixOf (stripped raw) then plus :: (stripped raw).drop 2
      else match given defaultCallingCode with
        | some code =>
          if [zero].isPrefixOf (stripped raw) then plus :: (code ++ (stripped raw).drop 1)
          else plus :: (code ++ stripped raw)
        | none => plus :: stripped raw := by
  rw [← stripped_trim]
  rfl

theorem plus_first_iff (t : Text) : [plus].isPrefixOf t = true ↔ t.head? = some plus := by
  cases t with
  | nil => decide
  | cons u rest =>
    simp only [List.isPrefixOf, Bool.and_true, beq_iff_eq, List.head?_cons, Option.some.injEq]
    exact eq_comm

/-- Behind the plus stand digits only, if what was typed has no plus inside and the calling
code is one; and otherwise the plus is still there. -/
theorem spelled_body (raw : Text) (digits : ∀ code ∈ defaultCallingCode, ∀ u ∈ code, isDigit u) :
    ∃ body, spelled raw defaultCallingCode = plus :: body ∧
      ((stripped raw).head? = some plus → ∀ u ∈ body, isDigit u) ∧
      ((stripped raw).head? ≠ some plus → body.length = bodyLength raw defaultCallingCode ∧
        (plus ∈ body ↔ plus ∈ stripped raw) ∧ ∀ u ∈ body, u = plus ∨ isDigit u) := by
  have known : ∀ u ∈ stripped raw, u = plus ∨ isDigit u := by
    intro u member
    obtain ⟨-, either⟩ := List.mem_filter.mp member
    rcases Bool.or_eq_true_iff.mp either with digit | same
    · exact .inr digit
    · exact .inl (of_decide_eq_true same)
  have code_digits : ∀ code, given defaultCallingCode = some code → ∀ u ∈ code, isDigit u :=
    fun code is_given => digits code (Option.filter_eq_some_iff.mp is_given).1
  have no_plus : ¬ isDigit plus = true := by decide
  have not_zero : plus ≠ zero := by decide
  rw [spelled_eq, bodyLength]
  by_cases first : [plus].isPrefixOf (stripped raw) = true
  · rw [if_pos first]
    refine ⟨_, rfl, fun _ u member => (List.mem_filter.mp member).2, fun other => ?_⟩
    exact absurd ((plus_first_iff _).mp first) other
  · rw [if_neg first]
    have other : (stripped raw).head? ≠ some plus := fun same => first ((plus_first_iff _).mpr same)
    by_cases double : [zero, zero].isPrefixOf (stripped raw) = true
    · rw [if_pos double]
      obtain ⟨rest, parts⟩ := List.isPrefixOf_iff_prefix.mp double
      refine ⟨_, rfl, fun same => absurd same other, fun _ => ⟨(if_pos double).symm, ?_, ?_⟩⟩
      · rw [← parts]
        simp [not_zero]
      · exact fun u member => known u (List.mem_of_mem_drop member)
    · rw [if_neg double]
      simp only [if_neg double]
      cases is_given : given defaultCallingCode with
      | none => exact ⟨_, rfl, fun same => absurd same other, fun _ => ⟨rfl, Iff.rfl, known⟩⟩
      | some code =>
        have code_plain : plus ∉ code := fun member => no_plus (code_digits code is_given _ member)
        by_cases trunk : [zero].isPrefixOf (stripped raw) = true
        · simp only [if_pos trunk]
          obtain ⟨rest, parts⟩ := List.isPrefixOf_iff_prefix.mp trunk
          refine ⟨_, rfl, fun same => absurd same other, fun _ => ⟨List.length_append, ?_, ?_⟩⟩
          · rw [← parts]
            simp [not_zero, code_plain]
          · intro u member
            rcases List.mem_append.mp member with coded | later
            · exact .inr (code_digits code is_given u coded)
            · exact known u (List.mem_of_mem_drop later)
        · simp only [if_neg trunk]
          refine ⟨_, rfl, fun same => absurd same other, fun _ => ⟨List.length_append, ?_, ?_⟩⟩
          · simp [code_plain]
          · intro u member
            rcases List.mem_append.mp member with coded | later
            · exact .inr (code_digits code is_given u coded)
            · exact known u later

/-- The number of characters decides. -/
theorem normalizeE164_of_spelled {body : Text} (there : raw ≠ [])
    (same : spelled raw defaultCallingCode = plus :: body) :
    normalizeE164 raw defaultCallingCode =
      if body.length < 7 ∨ 15 < body.length then none else some (plus :: body) := by
  unfold normalizeE164
  rw [if_neg there, same]
  rfl

/-- A plus and digits are kept as they are. -/
theorem spelled_of_digits {body : Text} (digits : ∀ u ∈ body, isDigit u) (code : Option Text) :
    spelled (plus :: body) code = plus :: body := by
  have whole : stripped (plus :: body) = plus :: body := by
    apply List.filter_eq_self.mpr
    intro u member
    rcases List.mem_cons.mp member with rfl | later
    · rfl
    · rw [digits u later, Bool.true_or]
  have first : [plus].isPrefixOf (plus :: body) = true := (plus_first_iff _).mpr rfl
  rw [spelled_eq, whole, if_pos first, List.drop_one, List.tail_cons,
    List.filter_eq_self.mpr digits]

/-- What has no form says nothing wrong. -/
theorem canonical_of_none (nothing : normalizeE164 raw defaultCallingCode = none) :
    Canonical raw defaultCallingCode := by
  constructor
  · intro e164 same
    rw [nothing] at same
    cases same
  · intro e164 same
    rw [nothing] at same
    cases same

/-- A form of seven to fifteen digits is its own form. -/
theorem canonical_of_digits {body : Text} (all_digits : ∀ u ∈ body, isDigit u)
    (size : ¬ (body.length < 7 ∨ 15 < body.length))
    (normal : normalizeE164 raw defaultCallingCode = some (plus :: body)) :
    Canonical raw defaultCallingCode := by
  constructor
  · intro e164 found
    cases normal.symm.trans found
    exact ⟨body, rfl, all_digits, by omega, by omega⟩
  · intro e164 found code
    cases normal.symm.trans found
    rw [normalizeE164_of_spelled (List.cons_ne_nil _ _) (spelled_of_digits all_digits code),
      if_neg size]

/-- The form is canonical exactly where no plus is left inside it: one stands in front of
what was typed, or nowhere, or the number is refused. -/
theorem canonical_iff_clean (raw : Text)
    (digits : ∀ code ∈ defaultCallingCode, ∀ u ∈ code, isDigit u) :
    Canonical raw defaultCallingCode ↔ Clean raw defaultCallingCode := by
  by_cases there : raw = []
  · have clean : plus ∉ stripped raw := by
      rw [there]
      exact List.not_mem_nil
    exact iff_of_true (canonical_of_none (if_pos there)) (.inr (.inl clean))
  · obtain ⟨body, same, plus_first, otherwise⟩ := spelled_body raw digits
    have normal := normalizeE164_of_spelled there same
    constructor
    · intro canonical
      by_cases first : (stripped raw).head? = some plus
      · exact .inl first
      · obtain ⟨size, inside, -⟩ := otherwise first
        by_cases refused : body.length < 7 ∨ 15 < body.length
        · rw [size] at refused
          exact .inr (.inr refused)
        · rw [if_neg refused] at normal
          obtain ⟨ds, parts, all_digits, -⟩ := canonical.shape _ normal
          cases parts
          refine .inr (.inl fun member => ?_)
          exact absurd (all_digits plus (inside.mpr member)) (by decide)
    · intro clean
      by_cases refused : body.length < 7 ∨ 15 < body.length
      · rw [if_pos refused] at normal
        exact canonical_of_none normal
      · have all_digits : ∀ u ∈ body, isDigit u := by
          by_cases first : (stripped raw).head? = some plus
          · exact plus_first first
          · obtain ⟨size, inside, either⟩ := otherwise first
            rcases clean with front | none_kept | wrong
            · exact absurd front first
            · intro u member
              rcases either u member with rfl | digit
              · exact absurd (inside.mp member) none_kept
              · exact digit
            · rw [← size] at wrong
              exact absurd wrong refused
        rw [if_neg refused] at normal
        exact canonical_of_digits all_digits refused normal

/-! ### The spellings of one number -/

/-- A national number and its calling code as they may be typed under a default calling
code, with anything else between the characters. -/
inductive Spells (code n : Text) : Text → Option Text → Prop where
  | international {raw : Text} {any : Option Text} (typed : stripped raw = plus :: (code ++ n)) :
      Spells code n raw any
  | double {raw : Text} {any : Option Text} (typed : stripped raw = zero :: zero :: (code ++ n)) :
      Spells code n raw any
  | trunk {raw : Text} (typed : stripped raw = zero :: n) : Spells code n raw (some code)
  | national {raw : Text} (typed : stripped raw = n) : Spells code n raw (some code)

/-- All of them come to the same form. -/
theorem Spells.spelled (spells : Spells code n raw defaultCallingCode) (coded : code ≠ [])
    (code_digits : ∀ u ∈ code, isDigit u) (digits : ∀ u ∈ n, isDigit u)
    (significant : n.head? ≠ some zero) : spelled raw defaultCallingCode = plus :: (code ++ n) := by
  have is_given : given (some code) = some code :=
    Option.filter_eq_some_iff.mpr ⟨rfl, decide_eq_true coded⟩
  have not_plus : n.head? ≠ some plus := by
    intro first
    exact absurd (digits plus (List.mem_of_head? first)) (by decide)
  have one_zero : ¬ [zero].isPrefixOf n = true := by
    intro first
    obtain ⟨rest, parts⟩ := List.isPrefixOf_iff_prefix.mp first
    rw [← parts] at significant
    exact significant rfl
  have two_zeros : ¬ [zero, zero].isPrefixOf (zero :: n) = true := by
    intro first
    apply one_zero
    rwa [List.isPrefixOf, beq_self_eq_true, Bool.true_and] at first
  rw [spelled_eq]
  cases spells with
  | international typed =>
    have both : ∀ u ∈ code ++ n, isDigit u := by
      intro u member
      rcases List.mem_append.mp member with coded | later
      · exact code_digits u coded
      · exact digits u later
    rw [typed, if_pos ((plus_first_iff _).mpr rfl), List.drop_one, List.tail_cons,
      List.filter_eq_self.mpr both]
  | double typed =>
    rw [typed]
    rfl
  | trunk typed =>
    have no_plus : ¬ [plus].isPrefixOf (zero :: n) = true := by
      intro first
      have same : some zero = some plus := (plus_first_iff _).mp first
      exact absurd same (by decide)
    rw [typed, is_given, if_neg no_plus, if_neg two_zeros]
    rfl
  | national typed =>
    have no_plus : ¬ [plus].isPrefixOf n = true :=
      fun first => not_plus ((plus_first_iff _).mp first)
    have no_zeros : ¬ [zero, zero].isPrefixOf n = true := by
      intro first
      apply one_zero
      obtain ⟨rest, parts⟩ := List.isPrefixOf_iff_prefix.mp first
      rw [← parts]
      rfl
    rw [typed, is_given, if_neg no_plus, if_neg no_zeros]
    exact if_neg one_zero

theorem Spells.typed (spells : Spells code n raw defaultCallingCode) (there : n ≠ []) :
    raw ≠ [] := by
  rintro rfl
  cases spells with
  | international typed => cases typed
  | double typed => cases typed
  | trunk typed => cases typed
  | national typed => exact there typed.symm

/-- **When the form is canonical.** What is typed comes to nothing, or to a plus and 7 to 15
digits that come to themselves under every calling code, exactly if no plus is left inside:
it stands in front of what was typed, or nowhere, or the number is refused for its length.
The spellings of one number always come to the same. -/
theorem canonical_iff (raw : Text) (defaultCallingCode : Option Text)
    (digits : ∀ code ∈ defaultCallingCode, ∀ u ∈ code, isDigit u) :
    (Canonical raw defaultCallingCode ↔ Clean raw defaultCallingCode) ∧
      ∀ code n, code ≠ [] → (∀ u ∈ code, isDigit u) → n ≠ [] → (∀ u ∈ n, isDigit u) →
        n.head? ≠ some zero → ∀ typed any typed' any', Spells code n typed any →
          Spells code n typed' any' → normalizeE164 typed any = normalizeE164 typed' any' := by
  refine ⟨canonical_iff_clean raw digits, ?_⟩
  intro code n coded code_digits there n_digits significant typed any typed' any' spells spells'
  rw [normalizeE164_of_spelled (spells.typed there)
      (spells.spelled coded code_digits n_digits significant),
    normalizeE164_of_spelled (spells'.typed there)
      (spells'.spelled coded code_digits n_digits significant)]

theorem nigeria_digits : ∀ code ∈ some (utf16 "234"), ∀ u ∈ code, isDigit u := by
  intro code given
  cases Option.mem_some_iff.mp given
  have digits : (utf16 "234").all isDigit = true := by decide +kernel
  exact List.all_eq_true.mp digits

/-- A number with another one's plus inside, typed in Nigeria, under its own calling code. -/
theorem canonical_iff_local :
    ¬ Canonical (utf16 "0801+2345678") (some (utf16 "234")) ∧
      Canonical (utf16 "0801 234-5678") (some (utf16 "234")) := by
  have inside := (canonical_iff (utf16 "0801+2345678") (some (utf16 "234")) nigeria_digits).1
  have plain := (canonical_iff (utf16 "0801 234-5678") (some (utf16 "234")) nigeria_digits).1
  refine ⟨inside.not.mpr ?_, plain.mpr ?_⟩
  · unfold Clean
    decide +kernel
  · unfold Clean
    decide +kernel

/-- The plus inside "0801+2345678" stays inside the form, and is lost when the form is
normalized again. -/
theorem plus_is_left_inside :
    normalizeE164 (utf16 "0801+2345678") (some (utf16 "234")) = some (utf16 "+234801+2345678") ∧
      normalizeE164 (utf16 "+234801+2345678") (some (utf16 "234")) = some (utf16 "+2348012345678") ∧
      ¬ ∀ raw defaultCallingCode, (∀ code ∈ defaultCallingCode, ∀ u ∈ code, isDigit u) →
        Canonical raw defaultCallingCode := by
  have form : normalizeE164 (utf16 "0801+2345678") (some (utf16 "234")) =
      some (utf16 "+234801+2345678") := by decide +kernel
  have again : normalizeE164 (utf16 "+234801+2345678") (some (utf16 "234")) =
      some (utf16 "+2348012345678") := by decide +kernel
  refine ⟨form, again, fun all => ?_⟩
  have canonical := all (utf16 "0801+2345678") (some (utf16 "234")) nigeria_digits
  have same := (canonical.again _ form (some (utf16 "234"))).symm.trans again
  exact absurd same (by decide +kernel)

end Hwfa.PhoneNormalization
