import Mathlib.Data.List.Basic
import Mathlib.Data.List.TakeWhile

/-!
Percent-encoding, and queries that are built of it.

A byte that is not kept is written as `%` and two hexadecimal digits.  A separator that
is neither kept nor one of those characters does not occur in what is written, so a list
of pairs is read back from its query.
-/

namespace Hwfa.PercentCoding

def percent : UInt8 := 37

def ampersand : UInt8 := 38

def equals : UInt8 := 61

/-- A hexadecimal digit in upper case. -/
def upperDigit (n : Nat) : UInt8 := UInt8.ofNat (if n < 10 then 48 + n else 55 + n)

/-- A hexadecimal digit in either case. -/
def digitValue (b : UInt8) : Option Nat :=
  if 48 ≤ b ∧ b ≤ 57 then some (b.toNat - 48)
  else if 65 ≤ b ∧ b ≤ 70 then some (b.toNat - 55)
  else if 97 ≤ b ∧ b ≤ 102 then some (b.toNat - 87)
  else none

def escape (b : UInt8) : List UInt8 :=
  [percent, upperDigit (b.toNat / 16), upperDigit (b.toNat % 16)]

def encode (kept : UInt8 → Bool) (s : List UInt8) : List UInt8 :=
  s.flatMap fun b => if kept b then [b] else escape b

/-- `none` where a percent sign has no two digits behind it. -/
def decode : List UInt8 → Option (List UInt8)
  | [] => some []
  | b :: rest =>
    if b = percent then
      match rest with
      | high :: low :: rest => do
        let high ← digitValue high
        let low ← digitValue low
        let more ← decode rest
        return UInt8.ofNat (high * 16 + low) :: more
      | _ => none
    else (decode rest).map (b :: ·)

/-- What is before the first separator, and what is behind it. -/
def cut (separator : UInt8) (s : List UInt8) : List UInt8 × List UInt8 :=
  (s.takeWhile (· ≠ separator), (s.dropWhile (· ≠ separator)).drop 1)

def readPair (s : List UInt8) : Option (List UInt8 × List UInt8) := do
  let key ← decode (cut equals s).1
  let value ← decode (cut equals s).2
  return (key, value)

/-- The keys and values of a query. -/
def readPairs (query : List UInt8) : Option (List (List UInt8 × List UInt8)) :=
  (query.splitOn ampersand).mapM readPair

def writePair (kept : UInt8 → Bool) (pair : List UInt8 × List UInt8) : List UInt8 :=
  encode kept pair.1 ++ equals :: encode kept pair.2

def writePairs (kept : UInt8 → Bool) (pairs : List (List UInt8 × List UInt8)) : List UInt8 :=
  [ampersand].intercalate (pairs.map (writePair kept))

theorem writePairs_append {kept : UInt8 → Bool} {pairs : List (List UInt8 × List UInt8)}
    (some_pair : pairs ≠ []) (pair : List UInt8 × List UInt8) :
    writePairs kept (pairs ++ [pair]) = writePairs kept pairs ++ ampersand :: writePair kept pair := by
  induction pairs with
  | nil => exact absurd rfl some_pair
  | cons first rest ih =>
    cases rest with
    | nil => simp [writePairs, List.intercalate_cons_cons]
    | cons second rest =>
      have more := ih (List.cons_ne_nil second rest)
      simp only [writePairs, List.map_cons, List.cons_append, List.intercalate_cons_cons] at more ⊢
      rw [more]
      simp only [List.append_assoc, List.cons_append]

/-! ### Cutting -/

theorem cut_append {separator : UInt8} {front : List UInt8} (absent : separator ∉ front)
    (back : List UInt8) : cut separator (front ++ separator :: back) = (front, back) := by
  have others : ∀ b ∈ front, decide (b ≠ separator) = true := by
    intro b member
    exact decide_eq_true fun same => absent (same ▸ member)
  rw [cut, List.takeWhile_append_of_pos others, List.dropWhile_append_of_pos others]
  simp

/-- Where the separator is first tells two parts from each other. -/
theorem eq_of_append_separator {separator : UInt8} {front front' back back' : List UInt8}
    (absent : separator ∉ front) (absent' : separator ∉ front')
    (same : front ++ separator :: back = front' ++ separator :: back') :
    front = front' ∧ back = back' := by
  have parts := congrArg (cut separator) same
  rw [cut_append absent, cut_append absent'] at parts
  exact Prod.mk.inj parts

/-! ### Encoding -/

section

variable {kept : UInt8 → Bool}

theorem digitValue_upperDigit {n : Nat} (small : n < 16) : digitValue (upperDigit n) = some n := by
  have all : ∀ n : Fin 16, digitValue (upperDigit n) = some n.val := by decide
  exact all ⟨n, small⟩

theorem decode_escape (b : UInt8) (rest : List UInt8) :
    decode (escape b ++ rest) = (decode rest).map (b :: ·) := by
  have size := b.toNat_lt
  have parts : b.toNat / 16 * 16 + b.toNat % 16 = b.toNat := by omega
  have high := digitValue_upperDigit (n := b.toNat / 16) (by omega)
  have low := digitValue_upperDigit (n := b.toNat % 16) (by omega)
  change decode (percent :: upperDigit (b.toNat / 16) :: upperDigit (b.toNat % 16) :: rest) = _
  rw [decode, if_pos rfl, high, low]
  simp only [Option.bind_eq_bind, Option.bind_some, parts, UInt8.ofNat_toNat]
  cases decode rest <;> rfl

theorem decode_cons {b : UInt8} (other : b ≠ percent) (rest : List UInt8) :
    decode (b :: rest) = (decode rest).map (b :: ·) := by
  rw [decode.eq_def]
  exact if_neg other

theorem encode_cons (b : UInt8) (s : List UInt8) :
    encode kept (b :: s) = (if kept b then [b] else escape b) ++ encode kept s := List.flatMap_cons

theorem encode_append (s t : List UInt8) : encode kept (s ++ t) = encode kept s ++ encode kept t :=
  List.flatMap_append

/-- Bytes that are kept are written as they are. -/
theorem encode_of_kept {s : List UInt8} (all : ∀ b ∈ s, kept b) : encode kept s = s := by
  induction s with
  | nil => rfl
  | cons b rest ih =>
    rw [List.forall_mem_cons] at all
    rw [encode_cons, if_pos all.1, ih all.2, List.singleton_append]

/-- What was encoded is read back, if the percent sign is not kept. -/
theorem decode_encode (escapes : kept percent = false) (s : List UInt8) :
    decode (encode kept s) = some s := by
  induction s with
  | nil => rfl
  | cons b rest ih =>
    rw [encode_cons]
    by_cases keeps : kept b = true
    · have other : b ≠ percent := by
        rintro rfl
        rw [escapes] at keeps
        cases keeps
      rw [if_pos keeps, List.singleton_append, decode_cons other, ih, Option.map_some]
    · rw [if_neg keeps, decode_escape, ih, Option.map_some]

theorem encode_injective (escapes : kept percent = false) {s t : List UInt8}
    (same : encode kept s = encode kept t) : s = t := by
  have read := decode_encode escapes s
  rw [same, decode_encode escapes] at read
  exact (Option.some.inj read).symm

/-- A byte that is neither kept nor of an escape is nowhere in what is written. -/
theorem notMem_encode {separator : UInt8} (escapes : kept separator = false)
    (other : separator ≠ percent) (no_digit : digitValue separator = none) (s : List UInt8) :
    separator ∉ encode kept s := by
  intro member
  obtain ⟨b, -, inside⟩ := List.mem_flatMap.mp member
  have size := b.toNat_lt
  split at inside
  · next keeps =>
    rw [List.mem_singleton.mp inside, keeps] at escapes
    cases escapes
  · have digit {n : Nat} (small : n < 16) : separator ≠ upperDigit n := by
      rintro rfl
      rw [digitValue_upperDigit small] at no_digit
      cases no_digit
    simp only [escape, List.mem_cons, List.not_mem_nil, or_false] at inside
    rcases inside with same | same | same
    · exact other same
    · exact digit (by omega) same
    · exact digit (by omega) same

/-! ### Queries -/

/-- Both separators of a query are written as escapes. -/
structure Separates (kept : UInt8 → Bool) : Prop where
  percent : kept percent = false
  ampersand : kept ampersand = false
  equals : kept equals = false

theorem readPair_writePair (separates : Separates kept) (pair : List UInt8 × List UInt8) :
    readPair (writePair kept pair) = some pair := by
  have absent : equals ∉ encode kept pair.1 :=
    notMem_encode separates.equals (by decide) (by decide) pair.1
  rw [readPair, writePair, cut_append absent, decode_encode separates.percent,
    decode_encode separates.percent]
  rfl

/-- Nor is it anywhere in a query, if that is not separated by it. -/
theorem notMem_writePairs {b : UInt8} (escapes : kept b = false) (other : b ≠ percent)
    (no_digit : digitValue b = none) (no_ampersand : b ≠ ampersand) (no_equals : b ≠ equals)
    (pairs : List (List UInt8 × List UInt8)) : b ∉ writePairs kept pairs := by
  have absent (s : List UInt8) : b ∉ encode kept s := notMem_encode escapes other no_digit s
  have pair_absent (pair : List UInt8 × List UInt8) : b ∉ writePair kept pair := by
    rw [writePair, List.mem_append, List.mem_cons, not_or, not_or]
    exact ⟨absent _, no_equals, absent _⟩
  induction pairs with
  | nil => exact List.not_mem_nil
  | cons pair rest ih =>
    cases rest with
    | nil =>
      rw [writePairs, List.map_cons, List.map_nil, List.intercalate_singleton]
      exact pair_absent pair
    | cons second rest =>
      rw [writePairs, List.map_cons, List.map_cons, List.intercalate_cons_cons, List.mem_append,
        List.mem_append, List.mem_singleton, not_or, not_or]
      exact ⟨⟨pair_absent pair, no_ampersand⟩, ih⟩

theorem ampersand_notMem_writePair (separates : Separates kept) (pair : List UInt8 × List UInt8) :
    ampersand ∉ writePair kept pair := by
  have absent (s : List UInt8) : ampersand ∉ encode kept s :=
    notMem_encode separates.ampersand (by decide) (by decide) s
  rw [writePair, List.mem_append, List.mem_cons, not_or, not_or]
  exact ⟨absent _, by decide, absent _⟩

theorem readPairs_writePairs (separates : Separates kept) {pairs : List (List UInt8 × List UInt8)}
    (some_pair : pairs ≠ []) : readPairs (writePairs kept pairs) = some pairs := by
  have parts : ∀ part ∈ pairs.map (writePair kept), ampersand ∉ part := by
    intro part member
    obtain ⟨pair, -, rfl⟩ := List.mem_map.mp member
    exact ampersand_notMem_writePair separates pair
  have read (pairs : List (List UInt8 × List UInt8)) :
      (pairs.map (writePair kept)).mapM readPair = some pairs := by
    induction pairs with
    | nil => rfl
    | cons pair rest ih =>
      simp only [List.map_cons, List.mapM_cons, readPair_writePair separates, ih,
        Option.bind_eq_bind, Option.bind_some, Option.pure_def]
  rw [readPairs, writePairs, List.splitOn_intercalate ampersand parts (by simpa using some_pair), read]

end

end Hwfa.PercentCoding
