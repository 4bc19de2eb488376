import Mathlib.Data.Int.Basic

/-!
The bit operators of ECMAScript on numbers that are integers.

An operator reads its operands modulo two to the power 32, works on the 32 bits
and gives them back as a number, signed except after `>>>`.  A double is exact
up to two to the power 53, so sums of a few of these numbers are integers here.
-/

namespace Hwfa.JsNumbers

/-- The 32 bits an operator sees of a number. -/
def bits (x : Int) : UInt32 := (Int32.ofInt x).toUInt32

/-- The number of a word whose first bit is the sign. -/
def signed (w : UInt32) : Int := w.toInt32.toInt

/-- The number of a word without a sign. -/
def unsigned (w : UInt32) : Int := w.toNat

/-- `x | y`. -/
def or (x y : Int) : Int := signed (bits x ||| bits y)

/-- `x ^ y`. -/
def xor (x y : Int) : Int := signed (bits x ^^^ bits y)

/-- `x & y`. -/
def and (x y : Int) : Int := signed (bits x &&& bits y)

/-- `~x`. -/
def not (x : Int) : Int := signed (~~~bits x)

/-- `x << n`. -/
def shiftLeft (x : Int) (n : UInt32) : Int := signed (bits x <<< n)

/-- `x >> n`, which copies the sign. -/
def shiftRight (x : Int) (n : UInt32) : Int :=
  ((bits x).toBitVec.sshiftRight (n.toNat % 32)).toInt

/-- `x >>> n`. -/
def shiftRightZero (x : Int) (n : UInt32) : Int := unsigned (bits x >>> n)

@[simp] theorem bits_natCast (n : Nat) : bits n = UInt32.ofNat n := by
  apply UInt32.toBitVec_inj.mp
  simp [bits, Int32.ofInt_eq_ofNat]

@[simp] theorem bits_unsigned (w : UInt32) : bits (unsigned w) = w := by
  rw [unsigned, bits_natCast, UInt32.ofNat_toNat]

@[simp] theorem bits_signed (w : UInt32) : bits (signed w) = w := by
  simp [bits, signed]

@[simp] theorem bits_add (x y : Int) : bits (x + y) = bits x + bits y := by
  simp [bits, Int32.ofInt_add]

@[simp] theorem bits_or (x y : Int) : bits (or x y) = bits x ||| bits y := bits_signed _

@[simp] theorem bits_xor (x y : Int) : bits (xor x y) = bits x ^^^ bits y := bits_signed _

@[simp] theorem bits_and (x y : Int) : bits (and x y) = bits x &&& bits y := bits_signed _

@[simp] theorem bits_not (x : Int) : bits (not x) = ~~~bits x := bits_signed _

@[simp] theorem bits_shiftLeft (x : Int) (n : UInt32) : bits (shiftLeft x n) = bits x <<< n :=
  bits_signed _

@[simp] theorem bits_shiftRightZero (x : Int) (n : UInt32) :
    bits (shiftRightZero x n) = bits x >>> n := bits_unsigned _

/-- `x >>> 0` is only read modulo two to the power 32. -/
theorem shiftRightZero_zero (x : Int) : shiftRightZero x 0 = unsigned (bits x) := by
  simp [shiftRightZero]

/-- A word below two to the power 31 is the same number signed and unsigned. -/
theorem signed_eq_unsigned {w : UInt32} (small : w.toNat < 2147483648) : signed w = unsigned w := by
  apply BitVec.toInt_eq_toNat_of_lt
  rw [UInt32.toBitVec_toInt32, UInt32.toNat_toBitVec]
  omega

/-- Below two to the power 31 a shift to the right is that of natural numbers. -/
theorem shiftRight_natCast {n : Nat} (small : n < 2147483648) {places : UInt32}
    (within : places.toNat < 32) : shiftRight n places = (n >>> places.toNat : Nat) := by
  have word : ((bits n).toBitVec.toInt : Int) = n := by
    rw [BitVec.toInt_eq_toNat_of_lt, bits_natCast]
    · simp; omega
    · simp; omega
  rw [shiftRight, BitVec.toInt_sshiftRight, word, Nat.mod_eq_of_lt within]
  rfl

/-- A shift to the left that stays below two to the power 31 is that of natural
numbers. -/
theorem shiftLeft_natCast {n : Nat} {places : UInt32} (within : places.toNat < 32)
    (small : n <<< places.toNat < 2147483648) :
    shiftLeft n places = (n <<< places.toNat : Nat) := by
  have grows : n ≤ n <<< places.toNat := by
    rw [Nat.shiftLeft_eq]
    exact Nat.le_mul_of_pos_right n (Nat.two_pow_pos _)
  have word : (bits n <<< places).toNat = n <<< places.toNat := by
    rw [UInt32.toNat_shiftLeft, bits_natCast, Nat.mod_eq_of_lt within, UInt32.toNat_ofNat']
    rw [Nat.mod_eq_of_lt (a := n) (by omega), Nat.mod_eq_of_lt (by omega)]
  rw [shiftLeft, signed_eq_unsigned (by rw [word]; exact small), unsigned, word]

/-- The word of a number is that number modulo two to the power 32. -/
theorem toNat_bits (x : Int) : ((bits x).toNat : Int) = x % 4294967296 := by
  have word : (bits x).toNat = (BitVec.ofInt 32 x).toNat := rfl
  rw [word, BitVec.toNat_ofInt]
  omega

/-- A shift to the left is a product, reduced to 32 bits with a sign. -/
theorem shiftLeft_eq_bmod (x : Int) {places : UInt32} (within : places.toNat < 32) :
    shiftLeft x places = (x * (Nat.pow 2 places.toNat : Nat)).bmod 4294967296 := by
  have word : (bits x <<< places).toNat =
      (bits x).toNat * Nat.pow 2 places.toNat % 4294967296 := by
    rw [UInt32.toNat_shiftLeft, Nat.mod_eq_of_lt within, Nat.shiftLeft_eq]
    rfl
  have number : signed (bits x <<< places) = ((bits x <<< places).toNat : Int).bmod 4294967296 :=
    BitVec.toInt_eq_toNat_bmod _
  rw [shiftLeft, number, word, Int.natCast_emod, Int.natCast_mul, toNat_bits]
  exact (Int.emod_bmod _ _).trans (Int.emod_mul_bmod x 4294967296)

/-- A shift to the right is a quotient of the number reduced to 32 bits with a
sign. -/
theorem shiftRight_eq_bmod (x : Int) {places : UInt32} (within : places.toNat < 32) :
    shiftRight x places = x.bmod 4294967296 / (Nat.pow 2 places.toNat : Nat) := by
  have number : (bits x).toBitVec.toInt = x.bmod 4294967296 := by
    rw [BitVec.toInt_eq_toNat_bmod]
    refine (congrArg (Int.bmod · 4294967296) (toNat_bits x)).trans ?_
    exact Int.emod_bmod x 4294967296
  rw [shiftRight, Nat.mod_eq_of_lt within, BitVec.toInt_sshiftRight, Int.shiftRight_eq_div_pow, number]
  rfl

/-- A number of 32 bits, with its sign or without, shifted to the right. -/
theorem shiftRight_eq (x : Int) {places : UInt32} (within : places.toNat < 32) :
    ∃ k : Int, shiftRight x places =
      ((bits x).toNat + k * 4294967296) / (Nat.pow 2 places.toNat : Nat) := by
  have number : ∃ k : Int, (bits x).toBitVec.toInt = (bits x).toNat + k * 4294967296 := by
    rw [BitVec.toInt_eq_toNat_cond]
    split
    · exact ⟨0, by simp⟩
    · exact ⟨-1, by simp; omega⟩
  obtain ⟨k, number⟩ := number
  refine ⟨k, ?_⟩
  rw [shiftRight, Nat.mod_eq_of_lt within, BitVec.toInt_sshiftRight, Int.shiftRight_eq_div_pow, number]
  rfl

/-- The last `k` bits of a number. -/
theorem and_mask (x : Int) {k m : Nat} (mask : m + 1 = Nat.pow 2 k) (few : k ≤ 31) :
    and x m = x % (m + 1) := by
  have bound : Nat.pow 2 k ≤ Nat.pow 2 31 := Nat.pow_le_pow_right (by omega) few
  have top : Nat.pow 2 31 = 2147483648 := rfl
  have divides : ((m + 1 : Nat) : Int) ∣ 4294967296 := by
    rw [mask]
    exact Int.natCast_dvd_natCast.mpr (Nat.pow_dvd_pow 2 (Nat.le_succ_of_le few))
  have masked : (bits x &&& bits m).toNat = (bits x).toNat % (m + 1) := by
    have all : (bits m).toNat = Nat.pow 2 k - 1 := by
      rw [bits_natCast, UInt32.toNat_ofNat', Nat.mod_eq_of_lt (by omega)]
      omega
    rw [UInt32.toNat_and, all, mask]
    exact Nat.and_two_pow_sub_one_eq_mod _ k
  have small : (bits x).toNat % (m + 1) < m + 1 := Nat.mod_lt _ (Nat.succ_pos m)
  rw [and, signed_eq_unsigned (by omega), unsigned, masked, Int.natCast_emod, toNat_bits,
    Int.emod_emod_of_dvd x divides, Int.natCast_add, Int.natCast_one]

/-- The last byte of a number. -/
theorem and_255 (x : Int) : and x 255 = x % 256 := and_mask x (k := 8) (m := 255) rfl (by decide)

end Hwfa.JsNumbers
