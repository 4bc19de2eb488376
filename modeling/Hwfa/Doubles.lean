import Mathlib.Algebra.Order.Ring.Nat
import Mathlib.Data.List.TakeWhile
import Hwfa.Decimals
import Hwfa.Json

/-!
Arithmetic on the doubles of ECMAScript.

A result is rounded to the nearest double, so it may differ from the exact one;
but it never crosses a point of the grid of doubles, and the integers up to two
to the power 53 lie on it.  `AtLeast` and `AtMost` carry such a bound through a
computation without following the rounding.
-/

namespace Hwfa.Doubles

open Hwfa.Json (Number nearest one)

/-- From this number of quanta on a double is infinite. -/
@[irreducible] def overflow : Nat := Nat.pow 2 2098

def withSign (negative : Bool) (size : Nat) : Int := if negative then -size else size

/-- The number of a sign and a size that was rounded. -/
def signed (negative : Bool) (size : Nat) : Number :=
  if overflow ≤ size then .infinite negative else .finite (withSign negative size)

/-- The double that is written as an integer, with its sign and its digits. -/
def ofInt (n : Int) : Number := .ofDecimal (n < 0) n.natAbs 0

/-- The double nearest to a number of quanta. -/
def ofQuanta (quanta : Int) : Number := signed (quanta < 0) (nearest quanta.natAbs one)

/-- `x * n`, for a positive integer `n`. -/
def times (x : Number) (n : Nat) : Number :=
  match x with
  | .finite quanta => ofQuanta (quanta * n)
  | .infinite negative => .infinite negative

/-- `x - n`, for an integer `n` that is a double. -/
def minus (x : Number) (n : Int) : Number :=
  match x with
  | .finite quanta => ofQuanta (quanta - n * one)
  | .infinite negative => .infinite negative

/-- `x < n`, for an integer `n` that is a double. -/
def below (x : Number) (n : Int) : Bool :=
  match x with
  | .finite quanta => quanta < n * one
  | .infinite negative => negative

/-! ### The grid -/

/-- A point of the grid: at most 53 significant bits. -/
def OnGrid (g : Nat) : Prop := ∃ k j, k ≤ Nat.pow 2 53 ∧ g = k * Nat.pow 2 j

/-- `size / unit`, to the nearest integer, ties to even. -/
def roundEven (size unit : Nat) : Nat :=
  if 2 * (size % unit) < unit then size / unit
  else if unit < 2 * (size % unit) then size / unit + 1
  else size / unit + size / unit % 2

/-- The distance between the doubles around `n / d`. -/
def place (n d : Nat) : Nat := Nat.pow 2 ((n * one / d).log2 - 52)

theorem nearest_eq (n d : Nat) :
    nearest n d = roundEven (n * one) (d * place n d) * place n d := rfl

theorem pow_two_pos (e : Nat) : 0 < Nat.pow 2 e := Nat.two_pow_pos e

/-- What matters of the two powers is that they are more than 53 apart. -/
theorem one_eq : ∃ e t, one = Nat.pow 2 e ∧ overflow = Nat.pow 2 t ∧ 54 + e ≤ t :=
  ⟨1074, 2098, by unfold one; rfl, by unfold overflow; rfl, by omega⟩

theorem one_pos : 0 < one := by
  obtain ⟨e, -, power, -, -⟩ := one_eq
  rw [power]
  exact pow_two_pos e

theorem place_pos (n d : Nat) : 0 < place n d := pow_two_pos _

theorem le_roundEven {t size unit : Nat} (positive : 0 < unit) (reached : t * unit ≤ size) :
    t ≤ roundEven size unit := by
  have whole : t ≤ size / unit := (Nat.le_div_iff_mul_le positive).mpr reached
  unfold roundEven
  split
  · exact whole
  · split <;> omega

theorem roundEven_le {t size unit : Nat} (positive : 0 < unit) (reached : size ≤ t * unit) :
    roundEven size unit ≤ t := by
  have parts : unit * (size / unit) + size % unit = size := Nat.div_add_mod size unit
  have whole : size / unit ≤ t := by
    rw [← Nat.mul_div_cancel t positive]
    exact Nat.div_le_div_right reached
  by_cases divides : size / unit = t
  · have excess : size % unit = 0 := by
      rw [divides, Nat.mul_comm] at parts
      omega
    rw [roundEven, excess, if_pos (by omega)]
    exact whole
  · have even := Nat.mod_lt (size / unit) (y := 2) (by omega)
    unfold roundEven
    split
    · exact whole
    · split <;> omega

/-- A point of the grid is a multiple of the distance between the doubles around
`n / d`, or it is no greater than the power of two below them. -/
theorem OnGrid.place_dvd_or_le {g n d : Nat} (grid : OnGrid g) :
    place n d ∣ g ∨
      g ≤ Nat.pow 2 52 * place n d ∧ Nat.pow 2 52 * place n d ≤ n * one / d := by
  obtain ⟨k, j, few, rfl⟩ := grid
  by_cases fine : (n * one / d).log2 - 52 ≤ j
  · left
    exact Dvd.dvd.mul_left (Nat.pow_dvd_pow 2 fine) k
  · right
    obtain ⟨e, log⟩ : ∃ e, (n * one / d).log2 = 53 + e + j :=
      ⟨(n * one / d).log2 - 53 - j, by omega⟩
    have distance : place n d = Nat.pow 2 (1 + e + j) := by
      rw [place, log]
      congr 1
      omega
    have top : Nat.pow 2 52 * place n d = Nat.pow 2 (53 + e + j) := by
      rw [distance]
      change 2 ^ 52 * 2 ^ (1 + e + j) = 2 ^ (53 + e + j)
      rw [← Nat.pow_add]
      congr 1
      omega
    rw [top, ← log]
    constructor
    · calc k * Nat.pow 2 j ≤ Nat.pow 2 53 * Nat.pow 2 j := Nat.mul_le_mul_right _ few
        _ = Nat.pow 2 (53 + j) := (Nat.pow_add 2 53 j).symm
        _ ≤ Nat.pow 2 (n * one / d).log2 := Nat.pow_le_pow_right (by omega) (by omega)
    · apply Nat.log2_self_le
      intro zero
      rw [zero, Nat.log2_zero] at log
      omega

/-- Rounding does not cross a point of the grid from above. -/
theorem le_nearest {g n d : Nat} (grid : OnGrid g) (positive : 0 < d)
    (reached : g * d ≤ n * one) : g ≤ nearest n d := by
  have unit : 0 < d * place n d := Nat.mul_pos positive (place_pos n d)
  rw [nearest_eq]
  rcases grid.place_dvd_or_le (n := n) (d := d) with ⟨t, rfl⟩ | ⟨small, low⟩
  · rw [Nat.mul_comm]
    apply Nat.mul_le_mul_right
    apply le_roundEven unit
    calc t * (d * place n d) = place n d * t * d := by ac_rfl
      _ ≤ n * one := reached
  · apply Nat.le_trans small
    apply Nat.mul_le_mul_right
    apply le_roundEven unit
    calc Nat.pow 2 52 * (d * place n d) = Nat.pow 2 52 * place n d * d := by ac_rfl
      _ ≤ n * one / d * d := Nat.mul_le_mul_right d low
      _ ≤ n * one := Nat.div_mul_le_self _ _

/-- Rounding does not cross a point of the grid from below. -/
theorem nearest_le {g n d : Nat} (grid : OnGrid g) (positive : 0 < d)
    (reached : n * one ≤ g * d) : nearest n d ≤ g := by
  have unit : 0 < d * place n d := Nat.mul_pos positive (place_pos n d)
  rw [nearest_eq]
  rcases grid.place_dvd_or_le (n := n) (d := d) with ⟨t, rfl⟩ | ⟨small, low⟩
  · rw [Nat.mul_comm (place n d) t]
    apply Nat.mul_le_mul_right
    apply roundEven_le unit
    calc n * one ≤ place n d * t * d := reached
      _ = t * (d * place n d) := by ac_rfl
  · have high : n * one / d ≤ g := by
      rw [← Nat.mul_div_cancel g positive]
      exact Nat.div_le_div_right reached
    have top : g = Nat.pow 2 52 * place n d := Nat.le_antisymm small (Nat.le_trans low high)
    rw [top]
    apply Nat.mul_le_mul_right
    apply roundEven_le unit
    calc n * one ≤ g * d := reached
      _ = Nat.pow 2 52 * (d * place n d) := by rw [top]; ac_rfl

/-- The integers up to two to the power 53 lie on the grid. -/
theorem onGrid_natCast {m : Nat} (small : m ≤ 9007199254740992) : OnGrid (m * one) := by
  obtain ⟨e, -, power, -, -⟩ := one_eq
  rw [power]
  exact ⟨m, e, small, rfl⟩

theorem lt_overflow {m : Nat} (small : m ≤ 9007199254740992) : m * one < overflow := by
  obtain ⟨e, t, power, top, apart⟩ := one_eq
  rw [power, top]
  have above : m < 2 ^ 54 := by omega
  calc m * Nat.pow 2 e < 2 ^ 54 * Nat.pow 2 e := Nat.mul_lt_mul_of_pos_right above (pow_two_pos e)
    _ = Nat.pow 2 (54 + e) := (Nat.pow_add 2 54 e).symm
    _ ≤ Nat.pow 2 t := Nat.pow_le_pow_right (by omega) apart

/-! ### Bounds -/

/-- `m ≤ x` -/
def AtLeast (x : Number) (m : Int) : Prop :=
  match x with
  | .finite quanta => m * one ≤ quanta
  | .infinite negative => negative = false

/-- `x ≤ m` -/
def AtMost (x : Number) (m : Int) : Prop :=
  match x with
  | .finite quanta => quanta ≤ m * one
  | .infinite negative => negative = true

/-- An integer up to two to the power 53 either way. -/
def Exact (m : Int) : Prop := -9007199254740992 ≤ m ∧ m ≤ 9007199254740992

@[simp] theorem withSign_false (size : Nat) : withSign false size = size := rfl

@[simp] theorem withSign_true (size : Nat) : withSign true size = -(size : Int) := rfl

theorem withSign_not (negative : Bool) (size : Nat) :
    withSign (!negative) size = -withSign negative size := by
  cases negative
  · rfl
  · exact (Int.neg_neg _).symm

theorem Exact.neg {m : Int} (exact : Exact m) : Exact (-m) := by
  obtain ⟨low, high⟩ := exact
  constructor <;> omega

@[simp] theorem atLeast_finite {quanta m : Int} :
    AtLeast (.finite quanta) m ↔ m * one ≤ quanta := Iff.rfl

@[simp] theorem atMost_finite {quanta m : Int} :
    AtMost (.finite quanta) m ↔ quanta ≤ m * one := Iff.rfl

theorem signed_of_overflow {negative : Bool} {size : Nat} (huge : overflow ≤ size) :
    signed negative size = .infinite negative := if_pos huge

theorem signed_of_lt {negative : Bool} {size : Nat} (fits : size < overflow) :
    signed negative size = .finite (withSign negative size) := if_neg (Nat.not_le.mpr fits)

/-- A bound from above is one from below, with the signs reversed. -/
theorem atMost_signed_iff {negative : Bool} {size : Nat} {m : Int} :
    AtMost (signed negative size) m ↔ AtLeast (signed (!negative) size) (-m) := by
  by_cases huge : overflow ≤ size
  · rw [signed_of_overflow huge, signed_of_overflow huge]
    cases negative <;> simp [AtMost, AtLeast]
  · rw [signed_of_lt (Nat.not_le.mp huge), signed_of_lt (Nat.not_le.mp huge), atMost_finite,
      atLeast_finite, Int.neg_mul]
    cases negative
    · exact Int.neg_le_neg_iff.symm
    · simp only [withSign_true, Bool.not_true, withSign_false]
      omega

/-- A rounded number keeps the bounds of its exact value. -/
theorem atLeast_signed {negative : Bool} {n d : Nat} {m : Int} (positive : 0 < d)
    (exact : Exact m) (reached : m * one * d ≤ withSign negative (n * one)) :
    AtLeast (signed negative (nearest n d)) m := by
  obtain ⟨low, high⟩ := exact
  cases negative with
  | false =>
    by_cases huge : overflow ≤ nearest n d
    · rw [signed_of_overflow huge]
      rfl
    rw [signed_of_lt (Nat.not_le.mp huge), atLeast_finite, withSign_false]
    by_cases from_zero : 0 ≤ m
    · obtain ⟨k, rfl⟩ := Int.eq_ofNat_of_zero_le from_zero
      rw [withSign_false, ← Int.natCast_mul, ← Int.natCast_mul] at reached
      rw [← Int.natCast_mul]
      apply Int.ofNat_le.mpr
      exact le_nearest (onGrid_natCast (by omega)) positive (Int.ofNat_le.mp reached)
    · have nonpos : m * one ≤ 0 := Int.mul_nonpos_of_nonpos_of_nonneg (by omega) (by omega)
      omega
  | true =>
    have nonpos : m ≤ 0 := by
      apply Int.not_lt.mp
      intro above
      have product : 0 < m * one * d := by
        apply Int.mul_pos
        · exact Int.mul_pos above (Int.natCast_pos.mpr one_pos)
        · exact Int.natCast_pos.mpr positive
      rw [withSign_true] at reached
      omega
    obtain ⟨k, size⟩ := Int.eq_ofNat_of_zero_le (Int.neg_nonneg.mpr nonpos)
    have small : k ≤ 9007199254740992 := by omega
    have opposite : m = -(k : Int) := by omega
    subst opposite
    rw [withSign_true, Int.neg_mul, Int.neg_mul, Int.neg_le_neg_iff, ← Int.natCast_mul,
      ← Int.natCast_mul] at reached
    have rounded := nearest_le (onGrid_natCast small) positive (Int.ofNat_le.mp reached)
    rw [signed_of_lt (Nat.lt_of_le_of_lt rounded (lt_overflow small)), atLeast_finite,
      withSign_true, Int.neg_mul, Int.neg_le_neg_iff, ← Int.natCast_mul]
    exact Int.ofNat_le.mpr rounded

theorem atMost_signed {negative : Bool} {n d : Nat} {m : Int} (positive : 0 < d)
    (exact : Exact m) (reached : withSign negative (n * one) ≤ m * one * d) :
    AtMost (signed negative (nearest n d)) m := by
  apply atMost_signed_iff.mpr
  apply atLeast_signed positive exact.neg
  rw [withSign_not, Int.neg_mul, Int.neg_mul]
  exact Int.neg_le_neg reached

theorem ofDecimal_eq (negative : Bool) (n : Nat) :
    Number.ofDecimal negative n 0 = signed negative (nearest n 1) := by
  unfold Number.ofDecimal signed overflow withSign
  generalize Nat.pow 2 2098 = bound
  simp

/-- The exact value of an integer or of a number of quanta. -/
theorem withSign_natAbs (q : Int) (d : Nat) :
    withSign (decide (q < 0)) (q.natAbs * d) = q * d := by
  by_cases negative : q < 0
  · rw [decide_eq_true negative, withSign_true, Int.natCast_mul, ← Int.neg_mul]
    congr 1
    omega
  · rw [decide_eq_false negative, withSign_false, Int.natCast_mul]
    congr 1
    omega

variable {x : Number} {q m m' v : Int}

theorem ofQuanta_atLeast (exact : Exact m) (reached : m * one ≤ q) : AtLeast (ofQuanta q) m := by
  apply atLeast_signed one_pos exact
  rw [withSign_natAbs]
  exact Int.mul_le_mul_of_nonneg_right reached (Int.natCast_nonneg one)

theorem ofQuanta_atMost (exact : Exact m) (reached : q ≤ m * one) : AtMost (ofQuanta q) m := by
  apply atMost_signed one_pos exact
  rw [withSign_natAbs]
  exact Int.mul_le_mul_of_nonneg_right reached (Int.natCast_nonneg one)

theorem ofInt_atLeast (exact : Exact m) (reached : m ≤ v) : AtLeast (ofInt v) m := by
  rw [ofInt, ofDecimal_eq]
  apply atLeast_signed Nat.one_pos exact
  rw [withSign_natAbs, Int.natCast_one, Int.mul_one]
  exact Int.mul_le_mul_of_nonneg_right reached (Int.natCast_nonneg one)

theorem ofInt_atMost (exact : Exact m) (reached : v ≤ m) : AtMost (ofInt v) m := by
  rw [ofInt, ofDecimal_eq]
  apply atMost_signed Nat.one_pos exact
  rw [withSign_natAbs, Int.natCast_one, Int.mul_one]
  exact Int.mul_le_mul_of_nonneg_right reached (Int.natCast_nonneg one)

theorem AtLeast.times {n : Nat} (bound : AtLeast x m) (exact : Exact m')
    (reached : m' ≤ m * n) : AtLeast (times x n) m' := by
  cases x with
  | infinite negative => exact bound
  | finite quanta =>
    apply ofQuanta_atLeast exact
    calc m' * one ≤ m * n * one := Int.mul_le_mul_of_nonneg_right reached (Int.natCast_nonneg one)
      _ = m * one * n := Int.mul_right_comm m n one
      _ ≤ quanta * n := Int.mul_le_mul_of_nonneg_right bound (Int.natCast_nonneg n)

theorem AtMost.times {n : Nat} (bound : AtMost x m) (exact : Exact m')
    (reached : m * n ≤ m') : AtMost (times x n) m' := by
  cases x with
  | infinite negative => exact bound
  | finite quanta =>
    apply ofQuanta_atMost exact
    calc quanta * n ≤ m * one * n := Int.mul_le_mul_of_nonneg_right bound (Int.natCast_nonneg n)
      _ = m * n * one := Int.mul_right_comm m one n
      _ ≤ m' * one := Int.mul_le_mul_of_nonneg_right reached (Int.natCast_nonneg one)

theorem AtLeast.minus {n : Int} (bound : AtLeast x m) (exact : Exact m')
    (reached : m' ≤ m - n) : AtLeast (minus x n) m' := by
  cases x with
  | infinite negative => exact bound
  | finite quanta =>
    apply ofQuanta_atLeast exact
    calc m' * one ≤ (m - n) * one :=
          Int.mul_le_mul_of_nonneg_right reached (Int.natCast_nonneg one)
      _ = m * one - n * one := Int.sub_mul m n one
      _ ≤ quanta - n * one := Int.sub_le_sub_right bound _

theorem AtMost.minus {n : Int} (bound : AtMost x m) (exact : Exact m')
    (reached : m - n ≤ m') : AtMost (minus x n) m' := by
  cases x with
  | infinite negative => exact bound
  | finite quanta =>
    apply ofQuanta_atMost exact
    calc quanta - n * one ≤ m * one - n * one := Int.sub_le_sub_right bound _
      _ = (m - n) * one := (Int.sub_mul m n one).symm
      _ ≤ m' * one := Int.mul_le_mul_of_nonneg_right reached (Int.natCast_nonneg one)

theorem AtLeast.not_below {n : Int} (bound : AtLeast x m) (reached : n ≤ m) :
    below x n = false := by
  cases x with
  | infinite negative => exact bound
  | finite quanta =>
    apply decide_eq_false
    apply Int.not_lt.mpr
    exact Int.le_trans (Int.mul_le_mul_of_nonneg_right reached (Int.natCast_nonneg one)) bound

theorem AtMost.below {n : Int} (bound : AtMost x m) (reached : m < n) :
    below x n = true := by
  cases x with
  | infinite negative => exact bound
  | finite quanta =>
    apply decide_eq_true
    exact Int.lt_of_le_of_lt bound
      (Int.mul_lt_mul_of_pos_right reached (Int.natCast_pos.mpr one_pos))

-- A bound is used through the lemmas above: unfolding it would start the rounding.
attribute [irreducible] AtLeast AtMost

/-! ### Literals -/

theorem digit_range {c : Char} (digit : c.isDigit) : 48 ≤ c.toNat ∧ c.toNat ≤ 57 := by
  simpa [Char.isDigit, UInt32.le_iff_toNat_le] using digit

theorem toNat_unit_digit {c : Char} (digit : c.isDigit) : (Json.unit c).toNat = c.toNat := by
  have range := digit_range digit
  rw [Json.unit, UInt16.toNat_ofNat']
  omega

theorem isDigit_unit {c : Char} (digit : c.isDigit) : Json.isDigit (Json.unit c) := by
  rw [Json.isDigit, Bool.and_eq_true, decide_eq_true_eq, decide_eq_true_eq, UInt16.le_iff_toNat_le,
    UInt16.le_iff_toNat_le, toNat_unit_digit digit]
  exact digit_range digit

theorem readDigits_units {cs : List Char} (digits : ∀ c ∈ cs, c.isDigit) :
    Json.readDigits (cs.map Json.unit) = Nat.ofDigitChars 10 cs 0 := by
  have step : ∀ n : Nat, (cs.map Json.unit).foldl (fun n u => n * 10 + (u - Json.unit '0').toNat) n =
      Nat.ofDigitChars 10 cs n := by
    induction cs with
    | nil => intro n; rfl
    | cons c cs ih =>
      intro n
      rw [List.forall_mem_cons] at digits
      have zero : (Json.unit '0').toNat = 48 := rfl
      have above : Json.unit '0' ≤ Json.unit c := by
        rw [UInt16.le_iff_toNat_le, toNat_unit_digit digits.1]
        exact (digit_range digits.1).1
      have value : (Json.unit c - Json.unit '0').toNat = c.toNat - '0'.toNat := by
        rw [UInt16.toNat_sub_of_le _ _ above, toNat_unit_digit digits.1, zero]
        rfl
      rw [List.map_cons, List.foldl_cons, Nat.ofDigitChars_cons, ih digits.2, value, Nat.mul_comm]
  exact step 0

/-- The literal of an integer, before it is rounded. -/
theorem readNumber_digits (n : Nat) (negative : Bool) :
    Json.readNumber ((if negative then [Json.unit '-'] else []) ++
      (Nat.toDigits 10 n).map Json.unit) = some (.ofDecimal negative n 0) := by
  have digits : ∀ c ∈ Nat.toDigits 10 n, c.isDigit := fun c member =>
    Nat.isDigit_of_mem_toDigits (by decide) (by decide) member
  have value := readDigits_units digits
  have taken : ∀ u ∈ (Nat.toDigits 10 n).map Json.unit, Json.isDigit u := by
    intro u member
    obtain ⟨c, inside, rfl⟩ := List.mem_map.mp member
    exact isDigit_unit (digits c inside)
  have some_digit : (Nat.toDigits 10 n).map Json.unit ≠ [] := by
    rw [Ne, List.map_eq_nil_iff]
    exact Nat.toDigits_ne_nil
  have no_sign : ((Nat.toDigits 10 n).map Json.unit).head? ≠ some (Json.unit '-') := by
    intro sign
    have digit := taken _ (List.mem_of_head? sign)
    revert digit
    decide
  have no_nought : ((Nat.toDigits 10 n).map Json.unit).length = 1 ∨
      ((Nat.toDigits 10 n).map Json.unit).head? ≠ some (Json.unit '0') := by
    rcases Nat.eq_zero_or_pos n with rfl | positive
    · left
      rfl
    · right
      intro nought
      obtain ⟨c, first, same⟩ := Option.map_eq_some_iff.mp (List.head?_map .. ▸ nought)
      have number := congrArg UInt16.toNat same
      rw [toNat_unit_digit (digits c (List.mem_of_head? first))] at number
      rw [Char.toNat_inj.mp (number.trans (show (Json.unit '0').toNat = '0'.toNat from rfl))] at first
      exact Decimals.digits_head_ne_zero positive first
  rw [Nat.ofDigitChars_ten_toDigits] at value
  generalize (Nat.toDigits 10 n).map Json.unit = ds at *
  have whole : ds.takeWhile Json.isDigit = ds := List.takeWhile_eq_self_iff.mpr taken
  have behind : ds.dropWhile Json.isDigit = [] := List.dropWhile_eq_nil_iff.mpr taken
  have nothing : Json.readDigits [] = 0 := rfl
  cases negative
  · simp [Json.readNumber, no_sign, whole, behind, some_digit, no_nought, value, nothing]
  · simp [Json.readNumber, whole, behind, some_digit, no_nought, value, nothing]

/-- The literal of an integer reads as the double nearest to it. -/
theorem readNumber_repr (n : Int) : Json.readNumber (n.repr.toList.map Json.unit) = some (ofInt n) := by
  rw [Int.repr_eq_if, ofInt]
  split
  · next positive =>
    have read := readNumber_digits n.toNat false
    have size : n.natAbs = n.toNat := by omega
    rw [Nat.toList_repr, decide_eq_false (Int.not_lt.mpr positive), size]
    exact read
  · next negative =>
    have read := readNumber_digits (-n).toNat true
    have size : n.natAbs = (-n).toNat := by omega
    rw [String.toList_append, Nat.toList_repr, decide_eq_true (Int.not_le.mp negative), size,
      List.map_append]
    exact read

end Hwfa.Doubles
