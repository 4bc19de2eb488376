import Hwfa.RelayIdentity

/-!
The numbers that the relay writes (`backend/relay/envelope.go`, `itoa`), and the device
number that it reads (`backend/relay/main.go`, `/v1/relay`).

`strconv.Atoi` takes every 64-bit integer.  `itoa` has a buffer of twenty bytes, as many
as the longest of them has characters, but it negates a negative number before it writes
the digits: the most negative one is its own negation, and is written as a bare sign.
-/

namespace Hwfa.RelayNumbers

open Hwfa.Decimals Hwfa.RelayEnvelope Hwfa.RelayIdentity

/-- `strconv.Atoi` of digits behind a sign: what is not an `int` is an error. -/
def readSigned (negative : Bool) (digits : List Char) : Option Int64 :=
  (readNat digits).bind fun n =>
    if negative then if n ≤ 9223372036854775808 then some (Int64.ofInt (-n)) else none
    else if n ≤ 9223372036854775807 then some (Int64.ofInt n) else none

/-- `strconv.Atoi`. -/
def atoi (s : String) : Option Int64 :=
  match s.toList with
  | '-' :: digits => readSigned true digits
  | '+' :: digits => readSigned false digits
  | digits => readSigned false digits

/-- The device number of a route key: what is behind its last colon. -/
def deviceOf (key : String) : Option Int64 :=
  (Texts.splitAtLast ':' key.toList).bind fun parts => atoi (String.ofList parts.2)

/-- What is written for a number is its canonical decimal and stays inside the buffer;
no other envelope has its id, and a device of that number is read back from its route
key. -/
structure Exact (n : Int64) : Prop where
  canonical : itoa n = n.toInt.repr
  inside : (itoaBuf n).isSome
  distinct : ∀ m : UInt64, envelopeID m = envelopeID n.toUInt64 → m = n.toUInt64
  recovered : ∀ query userID, atoi query = some n → deviceOf (routeKey userID n) = some n

theorem deviceOf_routeKey (userID : String) (n : Int64) :
    deviceOf (routeKey userID n) = atoi (itoa n) := by
  have key : (routeKey userID n).toList = userID.toList ++ ':' :: (itoa n).toList := by
    simp [routeKey]
  rw [deviceOf, key, Texts.splitAtLast_append _ (colon_not_mem_itoa n), Option.bind_some,
    String.ofList_toList]

theorem readSigned_digits (negative : Bool) (n : Nat) : readSigned negative (Nat.toDigits 10 n) =
    if negative then if n ≤ 9223372036854775808 then some (Int64.ofInt (-n)) else none
    else if n ≤ 9223372036854775807 then some (Int64.ofInt n) else none := by
  rw [readSigned, readNat_digits, Option.bind_some]

/-- What stands without a sign is no sign. -/
theorem atoi_digits {s : String} {n : Nat} (digits : s.toList = Nat.toDigits 10 n) :
    atoi s = readSigned false (Nat.toDigits 10 n) := by
  unfold atoi
  rw [digits]
  split
  · next rest same => exact absurd same (digits_head_ne_minus n rest)
  · next rest same =>
    have digit := digits_are_digits n
    rw [same] at digit
    cases digit
  · rfl

/-- The canonical decimal of a number is read as that number. -/
theorem atoi_repr (n : Int64) : atoi n.toInt.repr = some n := by
  have upper := n.toInt_lt
  have lower := n.le_toInt
  by_cases negative : n.toInt < 0
  · have written : n.toInt.repr.toList = '-' :: Nat.toDigits 10 (-n.toInt).toNat := by
      rw [Int.repr_eq_if, if_neg (by omega)]
      simp [Nat.toList_repr]
    have magnitude : (-((-n.toInt).toNat : Int)) = n.toInt := by omega
    unfold atoi
    rw [written]
    change readSigned true (Nat.toDigits 10 (-n.toInt).toNat) = some n
    rw [readSigned_digits, if_pos rfl, if_pos (by omega), magnitude, Int64.ofInt_toInt]
  · have written : n.toInt.repr.toList = Nat.toDigits 10 n.toInt.toNat := by
      rw [Int.repr_eq_if, if_pos (by omega), Nat.toList_repr]
    have magnitude : ((n.toInt.toNat : Nat) : Int) = n.toInt := by omega
    rw [atoi_digits written, readSigned_digits, if_neg (by simp), if_pos (by omega), magnitude,
      Int64.ofInt_toInt]

theorem least_not_exact : ¬ Exact Int64.minValue := by
  intro exact
  have written := exact.canonical
  rw [itoa_minValue] at written
  exact repr_ne_minus _ written.symm

/-- **When a number is written exactly.** Only the most negative one is not. -/
theorem itoa_exact_iff (n : Int64) : Exact n ↔ n ≠ Int64.minValue := by
  constructor
  · rintro exact rfl
    exact least_not_exact exact
  · intro ordinary
    have canonical := itoa_eq_repr ordinary
    refine ⟨canonical, itoaBuf_isSome n, fun m same => envelopeID_injective same, ?_⟩
    intro query userID _
    rw [deviceOf_routeKey, canonical, atoi_repr]

/-- The bare sign is no number: the device number that the query gave is lost. -/
theorem least_device_is_lost : atoi "-9223372036854775808" = some Int64.minValue ∧
    routeKey "alice" Int64.minValue = "alice:-" ∧ deviceOf "alice:-" = none ∧
      ¬ ∀ n, Exact n := by
  refine ⟨by decide, by decide, by decide, fun exact => ?_⟩
  exact least_not_exact (exact Int64.minValue)

end Hwfa.RelayNumbers
