/-!
Decimal numerals as character lists: reading back what Lean's own `Int.repr`
writes.  The reader accepts an optional minus sign and at least one digit, and
nothing else.
-/

namespace Hwfa.Decimals

/-- The value of a non-empty run of digits. -/
def readNat (digits : List Char) : Option Nat :=
  if digits ≠ [] ∧ digits.all Char.isDigit then some (Nat.ofDigitChars 10 digits 0) else none

/-- The value of a signed numeral. -/
def readInt : List Char → Option Int
  | '-' :: digits => (readNat digits).map fun (n : Nat) => -(n : Int)
  | digits => (readNat digits).map fun (n : Nat) => (n : Int)

@[simp] theorem readInt_minus (digits : List Char) :
    readInt ('-' :: digits) = (readNat digits).map fun (n : Nat) => -(n : Int) := rfl

theorem digits_are_digits (n : Nat) : (Nat.toDigits 10 n).all Char.isDigit := by
  rw [List.all_eq_true]
  exact fun c member => Nat.isDigit_of_mem_toDigits (by decide) (by decide) member

theorem readNat_digits (n : Nat) : readNat (Nat.toDigits 10 n) = some n := by
  simp [readNat, Nat.toDigits_ne_nil, digits_are_digits]

theorem digits_head_ne_minus (n : Nat) (rest : List Char) : Nat.toDigits 10 n ≠ '-' :: rest := by
  intro same
  have digit := digits_are_digits n
  rw [same] at digit
  simp [Char.isDigit] at digit

/-- Only nought begins with a nought. -/
theorem digits_head_ne_zero {n : Nat} (positive : 0 < n) :
    (Nat.toDigits 10 n).head? ≠ some '0' := by
  induction n using Nat.strongRecOn with
  | ind n ih =>
    rcases Nat.lt_or_ge n 10 with small | large
    · have all : ∀ k : Fin 10, 0 < k.val → k.val.digitChar ≠ '0' := by decide
      rw [Nat.toDigits_of_lt_base small, List.head?_cons]
      exact fun same => all ⟨n, small⟩ positive (Option.some.inj same)
    · obtain ⟨c, more, split⟩ := List.exists_cons_of_ne_nil (Nat.toDigits_ne_nil (n := n / 10) (b := 10))
      have first := ih (n / 10) (by omega) (by omega)
      rw [split] at first
      rw [Nat.toDigits_of_base_le (by omega) large, split]
      exact first

/-- Reading a written natural number gives it back. -/
theorem readInt_digits (n : Nat) : readInt (Nat.toDigits 10 n) = some (n : Int) := by
  unfold readInt
  split
  · next digits same => exact absurd same (digits_head_ne_minus n digits)
  · simp [readNat_digits]

/-- Reading a written integer gives it back. -/
theorem readInt_repr (n : Int) : readInt n.repr.toList = some n := by
  rw [Int.repr_eq_if]
  split
  · next positive =>
    rw [Nat.toList_repr, readInt_digits]
    simp only [Option.some.injEq]
    omega
  · next negative =>
    have written : ("-" ++ (-n).toNat.repr).toList = '-' :: Nat.toDigits 10 (-n).toNat := by
      simp [Nat.toList_repr]
    rw [written, readInt_minus, readNat_digits, Option.map_some, Option.some.injEq]
    omega

/-- Distinct integers have distinct numerals. -/
theorem repr_injective {m n : Int} (same : m.repr = n.repr) : m = n := by
  have read := readInt_repr m
  rw [same, readInt_repr] at read
  exact (Option.some.inj read).symm

/-- A numeral's characters are digits, or the leading minus sign. -/
theorem repr_chars (n : Int) (c : Char) (member : c ∈ n.repr.toList) : c = '-' ∨ c.isDigit := by
  have digit : ∀ k, c ∈ Nat.toDigits 10 k → c.isDigit := fun _ =>
    Nat.isDigit_of_mem_toDigits (by decide) (by decide)
  rw [Int.repr_eq_if] at member
  split at member
  · exact .inr (digit _ (Nat.toList_repr ▸ member))
  · simp only [String.toList_append, Nat.toList_repr, List.mem_append] at member
    rcases member with minus | written
    · exact .inl (by simpa using minus)
    · exact .inr (digit _ written)

/-- A numeral has a first character. -/
theorem repr_cons (n : Int) : ∃ c more, n.repr.toList = c :: more ∧ (c = '-' ∨ c.isDigit) ∧
    ∀ d ∈ more, d = '-' ∨ d.isDigit := by
  have characters : ∀ c ∈ n.repr.toList, c = '-' ∨ c.isDigit := repr_chars n
  obtain ⟨c, more, split⟩ : ∃ c more, n.repr.toList = c :: more := by
    apply List.exists_cons_of_ne_nil
    intro nothing
    have read := readInt_repr n
    rw [nothing] at read
    cases read
  rw [split, List.forall_mem_cons] at characters
  exact ⟨c, more, split, characters⟩

end Hwfa.Decimals
