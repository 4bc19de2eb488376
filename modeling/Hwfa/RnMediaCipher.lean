import Hwfa.ClientHashing

/-!
The base64 codec of the phones (`apps/mobile/src/media/rnMediaCipher.ts`), whose engine
has neither `btoa` and `atob` nor `Buffer`.

The decoder shifts every character into one accumulator and never masks it: the bits of
earlier characters go on to the left until the 32 bits of the operators drop them.  What
a byte is taken from are the lowest twelve bits at most, which hold the latest characters
alone (`Holds`, `read_symbol`).
-/

namespace Hwfa.RnMediaCipher

open Hwfa.Json (Text unit utf16)
open Hwfa.JsNumbers (bits shiftLeft shiftRight)

def ALPHABET : Text := utf16 "ABCDEFGHIJKLMNOPQRSTUVWXYZabcdefghijklmnopqrstuvwxyz0123456789+/"

/-- A character that is not in the alphabet has none. -/
def LOOKUP (u : UInt16) : Option Nat := ALPHABET.idxOf? u

/-- The characters for the three bytes from `i` on.  Everything stays far below two to the
power 31, so the operators are those of natural numbers. -/
def group (bytes : List UInt8) (i : Nat) : Text :=
  let b0 := (bytes.getD i 0).toNat
  let b1 := if i + 1 < bytes.length then (bytes.getD (i + 1) 0).toNat else 0
  let b2 := if i + 2 < bytes.length then (bytes.getD (i + 2) 0).toNat else 0
  [ALPHABET.getD (b0 >>> 2) 0,
    ALPHABET.getD ((b0 &&& 0x03) <<< 4 ||| b1 >>> 4) 0,
    if i + 1 < bytes.length then ALPHABET.getD ((b1 &&& 0x0f) <<< 2 ||| b2 >>> 6) 0 else unit '=',
    if i + 2 < bytes.length then ALPHABET.getD (b2 &&& 0x3f) 0 else unit '=']

/-- `bytesToBase64`: `i` goes from nought in steps of three while it is inside. -/
def bytesToBase64 (bytes : List UInt8) : Text :=
  (List.range ((bytes.length + 2) / 3)).flatMap fun k => group bytes (3 * k)

/-- The variables of the loop of `base64ToBytes`. -/
structure Decoding where
  acc : Int
  bits : Nat
  p : Nat
  out : List UInt8

/-- One round.  `undefined` is nought to the operator, and what would be written past the
end of the array is not. -/
def Decoding.read (d : Decoding) (u : UInt16) : Decoding :=
  let acc := JsNumbers.or (shiftLeft d.acc 6) ((LOOKUP u).getD 0)
  let bits := d.bits + 6
  if 8 ≤ bits then
    let byte := UInt8.ofInt (JsNumbers.and (shiftRight acc (UInt32.ofNat (bits - 8))) 0xff)
    { acc, bits := bits - 8, p := d.p + 1, out := d.out.set d.p byte }
  else { d with acc, bits }

/-- `base64ToBytes`. -/
def base64ToBytes (b64 : Text) : List UInt8 :=
  let clean := Base64.unpadded (unit '=') b64
  let len := clean.length * 6 / 8
  (clean.foldl Decoding.read ⟨0, 0, 0, List.replicate len 0⟩).out

/-! ## The encoder -/

theorem letter_eq {n : Nat} (small : n < 64) : ALPHABET.getD n 0 = unit (Base64.symbol n) := by
  have all : ∀ n : Fin 64, ALPHABET.getD n 0 = unit (Base64.symbol n) := by decide +kernel
  exact all ⟨n, small⟩

/-- The operators on bytes are the quotients and remainders of the standard. -/
theorem sextets_eq (x y : UInt8) : x.toNat >>> 2 = x.toNat / 4 ∧ x.toNat / 4 < 64 ∧
    (x.toNat &&& 0x03) <<< 4 ||| y.toNat >>> 4 = x.toNat % 4 * 16 + y.toNat / 16 ∧
    x.toNat % 4 * 16 + y.toNat / 16 < 64 ∧
    (x.toNat &&& 0x0f) <<< 2 ||| y.toNat >>> 6 = x.toNat % 16 * 4 + y.toNat / 64 ∧
    x.toNat % 16 * 4 + y.toNat / 64 < 64 ∧ x.toNat &&& 0x3f = x.toNat % 64 := by
  have x_small := x.toNat_lt
  have y_small := y.toNat_lt
  have two : x.toNat &&& 0x03 = x.toNat % 4 := Nat.and_two_pow_sub_one_eq_mod _ 2
  have four : x.toNat &&& 0x0f = x.toNat % 16 := Nat.and_two_pow_sub_one_eq_mod _ 4
  have second : (x.toNat % 4) <<< 4 ||| y.toNat / 16 = x.toNat % 4 * 16 + y.toNat / 16 := by
    rw [← Nat.shiftLeft_add_eq_or_of_lt (by omega), Nat.shiftLeft_eq]
  have third : (x.toNat % 16) <<< 2 ||| y.toNat / 64 = x.toNat % 16 * 4 + y.toNat / 64 := by
    rw [← Nat.shiftLeft_add_eq_or_of_lt (by omega), Nat.shiftLeft_eq]
  refine ⟨Nat.shiftRight_eq_div_pow _ 2, by omega, ?_, by omega, ?_, by omega,
    Nat.and_two_pow_sub_one_eq_mod _ 6⟩
  · rw [two, Nat.shiftRight_eq_div_pow]
    exact second
  · rw [four, Nat.shiftRight_eq_div_pow]
    exact third

/-- The characters from the fourth byte on are those of the bytes from there on. -/
theorem group_next (a b c : UInt8) (rest : List UInt8) (k : Nat) :
    group (a :: b :: c :: rest) (3 * (k + 1)) = group rest (3 * k) := by
  have shifted (j : Nat) :
      (a :: b :: c :: rest).getD (3 * (k + 1) + j) 0 = rest.getD (3 * k + j) 0 := by
    rw [show 3 * (k + 1) + j = 3 * k + j + 3 by omega]
    rfl
  have inside (j : Nat) :
      3 * (k + 1) + j < (a :: b :: c :: rest).length ↔ 3 * k + j < rest.length := by
    simp only [List.length_cons]
    omega
  have first := shifted 0
  simp only [Nat.add_zero] at first
  simp only [group, shifted, inside, first]

theorem bytesToBase64_cons (a b c : UInt8) (rest : List UInt8) :
    bytesToBase64 (a :: b :: c :: rest) =
      group (a :: b :: c :: rest) 0 ++ bytesToBase64 rest := by
  have count : ((a :: b :: c :: rest).length + 2) / 3 = (rest.length + 2) / 3 + 1 := by
    simp only [List.length_cons]
    omega
  have later : (List.range ((rest.length + 2) / 3)).flatMap
      (fun k => group (a :: b :: c :: rest) (3 * (k + 1))) = bytesToBase64 rest := by
    simp only [group_next]
    rfl
  rw [bytesToBase64, count, List.range_succ_eq_map, List.flatMap_cons, List.flatMap_map, later]

/-- Three bytes are four characters of the standard. -/
theorem group_three (a b c : UInt8) (rest : List UInt8) : group (a :: b :: c :: rest) 0 =
    [unit (Base64.symbol (a.toNat / 4)), unit (Base64.symbol (a.toNat % 4 * 16 + b.toNat / 16)),
      unit (Base64.symbol (b.toNat % 16 * 4 + c.toNat / 64)),
      unit (Base64.symbol (c.toNat % 64))] := by
  obtain ⟨first, first_small, second, second_small, -⟩ := sextets_eq a b
  obtain ⟨-, -, -, -, third, third_small, -⟩ := sextets_eq b c
  obtain ⟨-, -, -, -, -, -, fourth⟩ := sextets_eq c 0
  have fourth_small : c.toNat % 64 < 64 := Nat.mod_lt _ (by decide)
  have more : 0 + 1 < (a :: b :: c :: rest).length ∧ 0 + 2 < (a :: b :: c :: rest).length := by
    simp
  have here : group (a :: b :: c :: rest) 0 = [ALPHABET.getD (a.toNat >>> 2) 0,
      ALPHABET.getD ((a.toNat &&& 0x03) <<< 4 ||| b.toNat >>> 4) 0,
      ALPHABET.getD ((b.toNat &&& 0x0f) <<< 2 ||| c.toNat >>> 6) 0,
      ALPHABET.getD (c.toNat &&& 0x3f) 0] := by
    simp only [group, if_pos more.1, if_pos more.2]
    rfl
  rw [here, first, second, third, fourth, letter_eq first_small, letter_eq second_small,
    letter_eq third_small, letter_eq fourth_small]

/-- **The encoder is that of the standard**, and so that of `btoa` and of `Buffer`. -/
theorem bytesToBase64_eq (bytes : List UInt8) :
    bytesToBase64 bytes = (Base64.encode bytes).map unit := by
  induction bytes using Base64.encode.induct with
  | case1 => rfl
  | case2 a =>
    obtain ⟨first, first_small, second, second_small, -⟩ := sextets_eq a 0
    have none : (0 : UInt8).toNat / 16 = 0 := rfl
    rw [none, Nat.add_zero] at second second_small
    have written : bytesToBase64 [a] = [ALPHABET.getD (a.toNat >>> 2) 0,
        ALPHABET.getD ((a.toNat &&& 0x03) <<< 4 ||| (0 : UInt8).toNat >>> 4) 0,
        unit '=', unit '='] := by simp [bytesToBase64, group]
    rw [written, first, second, letter_eq first_small, letter_eq second_small]
    rfl
  | case3 a b =>
    obtain ⟨first, first_small, second, second_small, -⟩ := sextets_eq a b
    obtain ⟨-, -, -, -, third, third_small, -⟩ := sextets_eq b 0
    have none : (0 : UInt8).toNat / 64 = 0 := rfl
    rw [none, Nat.add_zero] at third third_small
    have written : bytesToBase64 [a, b] = [ALPHABET.getD (a.toNat >>> 2) 0,
        ALPHABET.getD ((a.toNat &&& 0x03) <<< 4 ||| b.toNat >>> 4) 0,
        ALPHABET.getD ((b.toNat &&& 0x0f) <<< 2 ||| (0 : UInt8).toNat >>> 6) 0,
        unit '='] := by simp [bytesToBase64, group]
    rw [written, first, second, third, letter_eq first_small, letter_eq second_small,
      letter_eq third_small]
    rfl
  | case4 a b c rest ih =>
    rw [bytesToBase64_cons, group_three, ih]
    rfl

/-! ## The decoder -/

theorem lookup_symbol {n : Nat} (small : n < 64) : LOOKUP (unit (Base64.symbol n)) = some n := by
  have all : ∀ n : Fin 64, LOOKUP (unit (Base64.symbol n)) = some n.val := by decide +kernel
  exact all ⟨n, small⟩

/-- The accumulator has the last 32 bits of what was shifted into it. -/
def Holds (acc : Int) (whole : Nat) : Prop := bits acc = UInt32.ofNat whole

theorem Holds.shift {acc : Int} {whole n : Nat} (holds : Holds acc whole) (small : n < 64) :
    Holds (JsNumbers.or (shiftLeft acc 6) n) (whole * 64 + n) := by
  apply UInt32.toNat_inj.mp
  have word : (bits acc).toNat = whole % 4294967296 := by
    rw [holds, UInt32.toNat_ofNat']
  have shifted : (bits acc <<< 6).toNat = 64 * (whole % 67108864) := by
    have six : (6 : UInt32).toNat % 32 = 6 := rfl
    rw [UInt32.toNat_shiftLeft, six, Nat.shiftLeft_eq, word]
    omega
  have joined : 64 * (whole % 67108864) + n = 64 * (whole % 67108864) ||| n :=
    Nat.two_pow_add_eq_or_of_lt (i := 6) small _
  have bits_n : (bits (n : Int)).toNat = n := by
    rw [JsNumbers.bits_natCast, UInt32.toNat_ofNat']
    omega
  rw [JsNumbers.bits_or, JsNumbers.bits_shiftLeft, UInt32.toNat_or, shifted, bits_n, ← joined,
    UInt32.toNat_ofNat']
  omega

/-- A byte of the last twelve bits, the sign notwithstanding. -/
theorem Holds.byte {acc : Int} {whole : Nat} (holds : Holds acc whole) {places : Nat}
    (known : places = 0 ∨ places = 2 ∨ places = 4) :
    UInt8.ofInt (JsNumbers.and (shiftRight acc (UInt32.ofNat places)) 0xff) =
      UInt8.ofNat (whole / Nat.pow 2 places) := by
  have word : (bits acc).toNat = whole % 4294967296 := by
    rw [holds, UInt32.toNat_ofNat']
  have within : (UInt32.ofNat places).toNat < 32 := by
    rcases known with rfl | rfl | rfl <;> decide
  obtain ⟨k, shifted⟩ := JsNumbers.shiftRight_eq acc within
  have byte : JsNumbers.and (shiftRight acc (UInt32.ofNat places)) 255 =
      ((whole / Nat.pow 2 places % 256 : Nat) : Int) := by
    rw [JsNumbers.and_255, shifted, word]
    rcases known with rfl | rfl | rfl
    · change ((whole % 4294967296 : Nat) + k * 4294967296 : Int) / (1 : Nat) % 256 =
        (whole / 1 % 256 : Nat)
      omega
    · change ((whole % 4294967296 : Nat) + k * 4294967296 : Int) / (4 : Nat) % 256 =
        (whole / 4 % 256 : Nat)
      omega
    · change ((whole % 4294967296 : Nat) + k * 4294967296 : Int) / (16 : Nat) % 256 =
        (whole / 16 % 256 : Nat)
      omega
  rw [byte]
  generalize whole / Nat.pow 2 places = m
  have reduced : ((m % 256 : Nat) % 256 : Int).toNat = m % 256 := by omega
  apply UInt8.toNat_inj.mp
  change (UInt8.ofNat ((m % 256 : Nat) % 256 : Int).toNat).toNat = _
  rw [reduced, UInt8.toNat_ofNat', UInt8.toNat_ofNat']
  omega

/-- Where the loop is: `done` is written, and room for `more` bytes is left. -/
structure At (d : Decoding) (whole bits : Nat) (done : List UInt8) (more : Nat) : Prop where
  holds : Holds d.acc whole
  bits : d.bits = bits
  p : d.p = done.length
  out : d.out = done ++ List.replicate more 0

variable {d : Decoding} {whole more n : Nat} {done : List UInt8}

theorem At.reads (here : At d whole 0 done more) (small : n < 64) :
    At (d.read (unit (Base64.symbol n))) (whole * 64 + n) 6 done more := by
  have few : ¬ 8 ≤ d.bits + 6 := by
    rw [here.bits]
    decide
  simp only [Decoding.read, lookup_symbol small, Option.getD_some, if_neg few]
  exact ⟨here.holds.shift small, by rw [here.bits], here.p, here.out⟩

/-- With eight bits there is a byte. -/
theorem At.writes {places : Nat} (here : At d whole (places + 2) done (more + 1)) (small : n < 64)
    (known : places = 0 ∨ places = 2 ∨ places = 4) :
    At (d.read (unit (Base64.symbol n))) (whole * 64 + n) places
      (done ++ [UInt8.ofNat ((whole * 64 + n) / Nat.pow 2 places)]) more := by
  have enough : 8 ≤ d.bits + 6 := by
    rw [here.bits]
    omega
  have rest : d.bits + 6 - 8 = places := by
    rw [here.bits]
    omega
  have holds := here.holds.shift small
  simp only [Decoding.read, lookup_symbol small, Option.getD_some, if_pos enough, rest,
    holds.byte known]
  refine ⟨holds, rfl, by simp [here.p], ?_⟩
  simp [here.out, here.p, List.replicate_succ]

theorem ofNat_congr {m n : Nat} (same : m % 256 = n % 256) : UInt8.ofNat m = UInt8.ofNat n := by
  apply UInt8.toNat_inj.mp
  rw [UInt8.toNat_ofNat', UInt8.toNat_ofNat']
  exact same

theorem At.first {w x : Nat} (here : At d whole 0 done (more + 1)) (w_small : w < 64)
    (x_small : x < 64) :
    At ((d.read (unit (Base64.symbol w))).read (unit (Base64.symbol x)))
      ((whole * 64 + w) * 64 + x) 4 (done ++ [Base64.firstByte w x]) more := by
  have byte : UInt8.ofNat (((whole * 64 + w) * 64 + x) / Nat.pow 2 4) = Base64.firstByte w x := by
    apply ofNat_congr
    change ((whole * 64 + w) * 64 + x) / 16 % 256 = _
    omega
  rw [← byte]
  exact (here.reads w_small).writes x_small (.inr (.inr rfl))

theorem At.second {x y : Nat} (here : At d (whole * 64 + x) 4 done (more + 1)) (small : y < 64) :
    At (d.read (unit (Base64.symbol y))) ((whole * 64 + x) * 64 + y) 2
      (done ++ [Base64.secondByte x y]) more := by
  have byte : UInt8.ofNat (((whole * 64 + x) * 64 + y) / Nat.pow 2 2) = Base64.secondByte x y := by
    apply ofNat_congr
    change ((whole * 64 + x) * 64 + y) / 4 % 256 = _
    omega
  rw [← byte]
  exact here.writes small (.inr (.inl rfl))

theorem At.third {y z : Nat} (here : At d (whole * 64 + y) 2 done (more + 1)) (small : z < 64) :
    At (d.read (unit (Base64.symbol z))) ((whole * 64 + y) * 64 + z) 0
      (done ++ [Base64.thirdByte y z]) more := by
  have byte : UInt8.ofNat (((whole * 64 + y) * 64 + z) / Nat.pow 2 0) = Base64.thirdByte y z := by
    apply ofNat_congr
    change ((whole * 64 + y) * 64 + z) / 1 % 256 = _
    omega
  rw [← byte]
  exact here.writes small (.inl rfl)

/-- Whatever the accumulator holds of earlier characters, the bytes are those of the
sextets: after every fourth one there are no bits over. -/
theorem At.decodes (sextets : List Nat) (small : ∀ n ∈ sextets, n < 64) {d : Decoding} {whole : Nat}
    {done : List UInt8} (here : At d whole 0 done (sextets.length * 6 / 8)) :
    ((sextets.map fun n => unit (Base64.symbol n)).foldl Decoding.read d).out =
      done ++ Base64.bytesOf sextets := by
  induction sextets using Base64.bytesOf.induct generalizing d whole done with
  | case1 w x y z rest ih =>
    simp only [List.forall_mem_cons] at small
    obtain ⟨w_small, x_small, y_small, z_small, rest_small⟩ := small
    have room : (w :: x :: y :: z :: rest).length * 6 / 8 = rest.length * 6 / 8 + 1 + 1 + 1 := by
      simp only [List.length_cons]
      omega
    rw [room] at here
    have group := ((here.first w_small x_small).second y_small).third z_small
    simpa [Base64.bytesOf] using ih rest_small group
  | case2 w x y =>
    simp only [List.forall_mem_cons] at small
    obtain ⟨w_small, x_small, y_small, -⟩ := small
    have room : [w, x, y].length * 6 / 8 = 0 + 1 + 1 := by simp
    rw [room] at here
    have group := (here.first w_small x_small).second y_small
    simpa [Base64.bytesOf] using group.out
  | case3 w x =>
    simp only [List.forall_mem_cons] at small
    obtain ⟨w_small, x_small, -⟩ := small
    have room : [w, x].length * 6 / 8 = 0 + 1 := by simp
    rw [room] at here
    have group := here.first w_small x_small
    simpa [Base64.bytesOf] using group.out
  | case4 sextets four three two =>
    rcases sextets with _ | ⟨w, _ | ⟨x, _ | ⟨y, _ | ⟨z, rest⟩⟩⟩⟩
    · simpa [Base64.bytesOf] using here.out
    · -- a single sextet is no byte
      have room : [w].length * 6 / 8 = 0 := by simp
      rw [room] at here
      have only := here.reads (small w (by simp))
      simpa [Base64.bytesOf] using only.out
    · exact (two w x rfl).elim
    · exact (three w x y rfl).elim
    · exact (four w x y z rest rfl).elim

/-- Symbols with padding are decoded as what the symbols stand for. -/
theorem base64ToBytes_symbols {sextets : List Nat} (small : ∀ n ∈ sextets, n < 64) (few : Nat) :
    base64ToBytes ((sextets.map Base64.symbol ++ List.replicate few '=').map unit) =
      Base64.bytesOf sextets := by
  have units : (sextets.map Base64.symbol ++ List.replicate few '=').map unit =
      sextets.map (fun n => unit (Base64.symbol n)) ++ List.replicate few (unit '=') := by
    rw [List.map_append, List.map_map, List.map_replicate]
    rfl
  have absent : unit '=' ∉ sextets.map fun n => unit (Base64.symbol n) := by
    intro member
    obtain ⟨n, inside, same⟩ := List.mem_map.mp member
    have all : ∀ n : Fin 64, unit (Base64.symbol n) ≠ unit '=' := by decide +kernel
    exact all ⟨n, small n inside⟩ same
  have begins : At ⟨0, 0, 0, List.replicate (sextets.length * 6 / 8) 0⟩ 0 0 []
      (sextets.length * 6 / 8) := ⟨rfl, rfl, rfl, rfl⟩
  rw [units, base64ToBytes, Base64.unpadded_append absent, List.length_map]
  exact begins.decodes sextets small

/-- **The codec is standard base64.** What it encodes is the standard's text, which is that
of the portable client, and is decoded as what it was; and every padded text of the
standard is decoded as what it stands for, no byte more and no byte less. -/
theorem codec_is_standard (bytes : List UInt8) :
    bytesToBase64 bytes = (Base64.encode bytes).map unit ∧
      bytesToBase64 bytes = ClientHashing.bytesToBase64 bytes ∧
      base64ToBytes (bytesToBase64 bytes) = bytes ∧
      ∀ text decoded, Base64.decodeGroups text = some decoded →
        base64ToBytes (text.map unit) = decoded := by
  have decodes (text : List Char) (decoded : List UInt8)
      (standard : Base64.decodeGroups text = some decoded) :
      base64ToBytes (text.map unit) = decoded := by
    obtain ⟨sextets, few, rfl, small, rfl⟩ := Base64.decodeGroups_shape standard
    exact base64ToBytes_symbols small few
  have written := bytesToBase64_eq bytes
  refine ⟨written, ?_, ?_, decodes⟩
  · rw [written, ClientHashing.bytesToBase64_eq]
  · rw [written]
    exact decodes _ bytes (Base64.decodeGroups_encode bytes)

/-- Ten bytes: sixteen characters, three times what the accumulator holds. -/
theorem codec_is_standard_long : base64ToBytes (bytesToBase64
    [222, 173, 190, 239, 0, 17, 34, 51, 68, 85]) = [222, 173, 190, 239, 0, 17, 34, 51, 68, 85] ∧
      base64ToBytes (utf16 "3q2+7wARIjNEVQ==") = [222, 173, 190, 239, 0, 17, 34, 51, 68, 85] := by
  have codec := codec_is_standard [222, 173, 190, 239, 0, 17, 34, 51, 68, 85]
  exact ⟨codec.2.2.1, codec.2.2.2 "3q2+7wARIjNEVQ==".toList _ (by decide +kernel)⟩

end Hwfa.RnMediaCipher
