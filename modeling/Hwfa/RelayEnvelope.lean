import Hwfa.Decimals
import Hwfa.Texts

/-!
The relay's wire types (`backend/relay/envelope.go`) and its route keys.

Go strings that entered through JSON decoding are valid UTF-8, so they are Lean
strings; `int` and `int64` fields are `Int64`.  `itoa` is the hand-written
formatter: it fills a 20-byte buffer from the end, and negates a negative
number in machine arithmetic first.  `itoa_eq_repr` says it prints the canonical
decimal everywhere except at the most negative integer, whose negation is
itself and which it prints as a bare minus sign.  That is still a different
string from every other, so `routeKey_injective` holds for all ids and all
64-bit device numbers.
-/

namespace Hwfa.RelayEnvelope

open Hwfa.Decimals

/-- `envelope.go::Envelope`. -/
structure Envelope where
  id : String
  recipientID : String
  recipientDevice : Int64
  senderID : String
  senderDevice : Int64
  type : Int64
  ciphertext : String
  timestamp : Int64
  deriving DecidableEq, Repr

/-- `envelope.go::RelayMessage`, the tagged union of the wire protocol; absent
optional fields are Go's zero values. -/
structure RelayMessage where
  kind : String
  envelope : Option Envelope := none
  envelopeID : String := ""
  acceptedAt : Int := 0
  clientRef : String := ""
  status : String := ""
  targetID : String := ""
  targetDevice : Int64 := 0
  token : String := ""
  deriving DecidableEq, Repr

/-- The loop of `itoa`: `room` free slots are left before the digits already
written.  `none` is the index panic of writing before the first slot. -/
def itoaLoop : Nat → Int → List Char → Option (List Char)
  | 0, n, buf => if 0 < n then none else some buf
  | room + 1, n, buf =>
    if 0 < n then itoaLoop room (n / 10) (Nat.digitChar (n % 10).toNat :: buf) else some buf

/-- `itoa` up to the final conversion: the filled end of the 20-byte buffer. -/
def itoaBuf (n : Int64) : Option (List Char) :=
  if n = 0 then some ['0'] else do
    let neg := n < 0
    let buf ← itoaLoop 20 (if neg then -n else n).toInt []
    if neg then (if buf.length < 20 then some ('-' :: buf) else none) else some buf

/-- `envelope.go::itoa`.  `itoaBuf_isSome` rules the panic out. -/
def itoa (n : Int64) : String := String.ofList ((itoaBuf n).getD [])

/-- `envelope.go::routeKey`. -/
def routeKey (userID : String) (deviceID : Int64) : String := userID ++ ":" ++ itoa deviceID

/-- The key an envelope is routed by. -/
def Envelope.key (env : Envelope) : String := routeKey env.recipientID env.recipientDevice

/-- The loop prepends the digits of a positive number if there is room for them. -/
theorem itoaLoop_digits (room n : Nat) (positive : 0 < n)
    (fits : (Nat.toDigits 10 n).length ≤ room) (buf : List Char) : itoaLoop room n buf = some (Nat.toDigits 10 n ++ buf) := by
  induction room generalizing n buf with
  | zero =>
    have := Nat.length_toDigits_pos (b := 10) (n := n)
    omega
  | succ room ih =>
    have last : ((n : Int) % 10).toNat = n % 10 := by omega
    have rest : (n : Int) / 10 = (n / 10 : Nat) := by omega
    rw [itoaLoop, if_pos (by omega), last, rest]
    by_cases small : n < 10
    · have none : n / 10 = 0 := by omega
      rw [none, Nat.toDigits_of_lt_base small, Nat.mod_eq_of_lt small]
      cases room <;> rfl
    · rw [Nat.toDigits_of_base_le (by decide) (by omega : 10 ≤ n)] at fits ⊢
      rw [ih (n / 10) (by omega) (by simpa using fits)]
      simp

/-- A 64-bit magnitude leaves a slot of the buffer for the sign. -/
theorem digits_fit {n : Nat} (small : n ≤ 0x8000000000000000) :
    (Nat.toDigits 10 n).length < 20 := by
  have : (Nat.toDigits 10 n).length ≤ 19 :=
    (Nat.length_toDigits_le_iff (by decide) (by decide)).mpr (by omega)
  omega

/-- Away from the most negative integer the buffer holds the canonical decimal. -/
theorem itoaBuf_eq_repr {n : Int64} (ordinary : n ≠ Int64.minValue) :
    itoaBuf n = some n.toInt.repr.toList := by
  have upper := n.toInt_lt
  have lower := n.le_toInt
  have above : n.toInt ≠ -2 ^ 63 := by
    intro least
    exact ordinary (Int64.toInt_inj.mp (least.trans Int64.toInt_minValue.symm))
  unfold itoaBuf
  by_cases zero : n = 0
  · subst zero
    decide
  · have nonzero : n.toInt ≠ 0 := fun h => zero (Int64.toInt_inj.mp h)
    rw [if_neg zero, Int.repr_eq_if]
    by_cases neg : n < 0
    · have negative : n.toInt < 0 := Int64.lt_iff_toInt_lt.mp neg
      have negated : (-n).toInt = ((-n.toInt).toNat : Int) := by
        rw [Int64.toInt_neg, Int.bmod_eq_of_le (by omega) (by omega)]
        omega
      have wide := digits_fit (show (-n.toInt).toNat ≤ 0x8000000000000000 by omega)
      simp only [neg, ↓reduceIte, negated]
      rw [itoaLoop_digits 20 _ (by omega) (by omega)]
      simp [wide, show ¬ 0 ≤ n.toInt by omega, Nat.toList_repr]
    · have positive : 0 < n.toInt := by
        have : ¬ n.toInt < 0 := fun h => neg (Int64.lt_iff_toInt_lt.mpr h)
        omega
      have same : n.toInt = (n.toInt.toNat : Int) := by omega
      simp only [neg, ↓reduceIte]
      have wide := digits_fit (show n.toInt.toNat ≤ 0x8000000000000000 by omega)
      rw [same, itoaLoop_digits 20 _ (by omega) (by omega)]
      simp [Nat.toList_repr]

/-- At the most negative integer only the sign is written. -/
theorem itoaBuf_minValue : itoaBuf Int64.minValue = some ['-'] := by decide

/-- The buffer is never indexed out of range. -/
theorem itoaBuf_isSome (n : Int64) : (itoaBuf n).isSome := by
  by_cases least : n = Int64.minValue
  · rw [least, itoaBuf_minValue]; rfl
  · rw [itoaBuf_eq_repr least]; rfl

theorem itoa_eq_repr {n : Int64} (ordinary : n ≠ Int64.minValue) : itoa n = n.toInt.repr := by
  simp [itoa, itoaBuf_eq_repr ordinary]

theorem itoa_minValue : itoa Int64.minValue = "-" := by
  rw [itoa, itoaBuf_minValue]; rfl

/-- A bare minus sign is no numeral. -/
theorem repr_ne_minus (n : Int) : n.repr ≠ "-" := by
  intro same
  have read := readInt_repr n
  rw [same] at read
  simp [readNat] at read

/-- Distinct integers print differently, the most negative one included. -/
theorem itoa_injective {m n : Int64} (same : itoa m = itoa n) : m = n := by
  by_cases leastM : m = Int64.minValue <;> by_cases leastN : n = Int64.minValue
  · rw [leastM, leastN]
  · rw [leastM, itoa_minValue, itoa_eq_repr leastN] at same
    exact absurd same.symm (repr_ne_minus _)
  · rw [leastN, itoa_minValue, itoa_eq_repr leastM] at same
    exact absurd same (repr_ne_minus _)
  · rw [itoa_eq_repr leastM, itoa_eq_repr leastN] at same
    exact Int64.toInt_inj.mp (repr_injective same)

/-- No printed integer contains the separator of a route key. -/
theorem colon_not_mem_itoa (n : Int64) : ':' ∉ (itoa n).toList := by
  by_cases least : n = Int64.minValue
  · rw [least, itoa_minValue]; decide
  · rw [itoa_eq_repr least]
    intro member
    rcases repr_chars _ _ member with minus | digit
    · exact absurd minus (by decide)
    · exact absurd digit (by decide)

/-- A route key names exactly one user and device, whatever characters the user
id contains and whatever 64-bit integer the device number is. -/
theorem routeKey_injective {user user' : String} {device device' : Int64}
    (same : routeKey user device = routeKey user' device') : user = user' ∧ device = device' := by
  have lists := congrArg String.toList same
  simp only [routeKey, String.toList_append, List.append_assoc] at lists
  obtain ⟨users, devices⟩ := Texts.split_at_last (colon_not_mem_itoa _) (colon_not_mem_itoa _) lists
  exact ⟨String.toList_injective users, itoa_injective (String.toList_injective devices)⟩

end Hwfa.RelayEnvelope
