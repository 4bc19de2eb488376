import Hwfa.DiscoveryStore
import Hwfa.JsNumbers
import Hwfa.Json

/-!
The phone hash of the client (`packages/client/src/client.ts`, `sha256.ts`) and
that of Discovery (`backend/discovery/store.go`).

The client brings its own UTF-8 and its own SHA-256, written with the numbers of
JavaScript.  Both are followed here operation by operation: UTF-8 over UTF-16
code units, the padded block and the words of the schedule as the typed arrays
they are.  A number written to a typed array is reduced to the array's width.
-/

namespace Hwfa.ClientHashing

open Hwfa.Json (Text utf16 unit isLeading isTrailing toNat_ofNat)
open Hwfa.JsNumbers (bits unsigned or xor and not shiftLeft shiftRight shiftRightZero)

/-! ### SHA-256 -/

def K : List UInt32 := [
  0x428a2f98, 0x71374491, 0xb5c0fbcf, 0xe9b5dba5, 0x3956c25b, 0x59f111f1,
  0x923f82a4, 0xab1c5ed5, 0xd807aa98, 0x12835b01, 0x243185be, 0x550c7dc3,
  0x72be5d74, 0x80deb1fe, 0x9bdc06a7, 0xc19bf174, 0xe49b69c1, 0xefbe4786,
  0x0fc19dc6, 0x240ca1cc, 0x2de92c6f, 0x4a7484aa, 0x5cb0a9dc, 0x76f988da,
  0x983e5152, 0xa831c66d, 0xb00327c8, 0xbf597fc7, 0xc6e00bf3, 0xd5a79147,
  0x06ca6351, 0x14292967, 0x27b70a85, 0x2e1b2138, 0x4d2c6dfc, 0x53380d13,
  0x650a7354, 0x766a0abb, 0x81c2c92e, 0x92722c85, 0xa2bfe8a1, 0xa81a664b,
  0xc24b8b70, 0xc76c51a3, 0xd192e819, 0xd6990624, 0xf40e3585, 0x106aa070,
  0x19a4c116, 0x1e376c08, 0x2748774c, 0x34b0bcb5, 0x391c0cb3, 0x4ed8aa4a,
  0x5b9cca4f, 0x682e6ff3, 0x748f82ee, 0x78a5636f, 0x84c87814, 0x8cc70208,
  0x90befffa, 0xa4506ceb, 0xbef9a3f7, 0xc67178f2]

/-- The variables `a` to `h`, and `h0` to `h7`. -/
structure Variables where
  a : Int
  b : Int
  c : Int
  d : Int
  e : Int
  f : Int
  g : Int
  h : Int

def initial : Variables :=
  ⟨0x6a09e667, 0xbb67ae85, 0x3c6ef372, 0xa54ff53a, 0x510e527f, 0x9b05688c, 0x1f83d9ab, 0x5be0cd19⟩

def rotr (x : Int) (n : UInt32) : Int :=
  shiftRightZero (or (shiftRightZero x n) (shiftLeft x (32 - n))) 0

/-- An element of a `Uint32Array`. -/
def element (w : List UInt32) (i : Nat) : Int := unsigned (w.getD i 0)

/-- `DataView.setUint32`, the most significant byte first. -/
def setUint32 (buf : List UInt8) (offset : Nat) (value : Int) : List UInt8 :=
  buf.take offset ++ Sha256.wordBytes (bits value) ++ buf.drop (offset + 4)

/-- `DataView.getUint32`, the most significant byte first. -/
def getUint32 (buf : List UInt8) (offset : Nat) : UInt32 :=
  let byte (i : Nat) := (buf.getD (offset + i) 0).toUInt32
  byte 0 <<< 24 ||| byte 1 <<< 16 ||| byte 2 <<< 8 ||| byte 3

/-- `padded` -/
def paddedLength (ml : Nat) : Int := shiftLeft (shiftRight (ml + 8 : Nat) 6 + 1) 6

/-- `buf`, once the delimiter and the length are in. -/
def padded (data : List UInt8) : List UInt8 :=
  let ml := data.length
  let size := (paddedLength ml).toNat
  let bitLen : Int := ml * 8
  let buf : List UInt8 := List.replicate size 0
  let buf := data ++ buf.drop ml
  let buf := buf.set ml 0x80
  let buf := setUint32 buf (size - 8) (bitLen / 0x100000000)
  setUint32 buf (size - 4) (shiftRightZero bitLen 0)

/-- A word of the block at `off`. -/
def loadWord (buf : List UInt8) (off : Nat) (w : List UInt32) (t : Nat) : List UInt32 :=
  w.set t (getUint32 buf (off + t * 4))

/-- A word of the schedule after the sixteenth. -/
def extendWord (w : List UInt32) (t : Nat) : List UInt32 :=
  let x15 := element w (t - 15)
  let x2 := element w (t - 2)
  let s0 := xor (xor (rotr x15 7) (rotr x15 18)) (shiftRightZero x15 3)
  let s1 := xor (xor (rotr x2 17) (rotr x2 19)) (shiftRightZero x2 10)
  w.set t (bits (shiftRightZero (element w (t - 16) + s0 + element w (t - 7) + s1) 0))

def round (w : List UInt32) (v : Variables) (t : Nat) : Variables :=
  let s1 := xor (xor (rotr v.e 6) (rotr v.e 11)) (rotr v.e 25)
  let ch := xor (and v.e v.f) (and (not v.e) v.g)
  let temp1 := shiftRightZero (v.h + s1 + ch + element K t + element w t) 0
  let s0 := xor (xor (rotr v.a 2) (rotr v.a 13)) (rotr v.a 22)
  let maj := xor (xor (and v.a v.b) (and v.a v.c)) (and v.b v.c)
  let temp2 := shiftRightZero (s0 + maj) 0
  ⟨shiftRightZero (temp1 + temp2) 0, v.a, v.b, v.c, shiftRightZero (v.d + temp1) 0, v.e, v.f, v.g⟩

/-- The block at `off`; `w` keeps its words from one block to the next. -/
def block (buf : List UInt8) (state : Variables × List UInt32) (off : Nat) :
    Variables × List UInt32 :=
  let h := state.1
  let w := (List.range 16).foldl (loadWord buf off) state.2
  let w := (List.range' 16 48).foldl extendWord w
  let v := (List.range 64).foldl (round w) h
  (⟨shiftRightZero (h.a + v.a) 0, shiftRightZero (h.b + v.b) 0, shiftRightZero (h.c + v.c) 0,
    shiftRightZero (h.d + v.d) 0, shiftRightZero (h.e + v.e) 0, shiftRightZero (h.f + v.f) 0,
    shiftRightZero (h.g + v.g) 0, shiftRightZero (h.h + v.h) 0⟩, w)

/-- `sha256`.  A length that the typed arrays cannot have is an exception. -/
def sha256 (data : List UInt8) : Option (List UInt8) :=
  let size := paddedLength data.length
  if size < data.length ∨ size < 8 then none else
  let buf := padded data
  let offsets := (List.range (size.toNat / 64)).map (· * 64)
  let h := (offsets.foldl (block buf) (initial, List.replicate 64 0)).1
  some ([h.a, h.b, h.c, h.d, h.e, h.f, h.g, h.h].flatMap fun hh =>
    Sha256.wordBytes (bits (shiftRightZero hh 0)))

/-! ### It is the standard's -/

theorem K_eq_constants : K = Sha256.constants := rfl

/-- The 32 bits of every variable. -/
def Variables.words (v : Variables) : Sha256.Words :=
  ⟨bits v.a, bits v.b, bits v.c, bits v.d, bits v.e, bits v.f, bits v.g, bits v.h⟩

@[simp] theorem bits_element (w : List UInt32) (i : Nat) : bits (element w i) = w.getD i 0 :=
  JsNumbers.bits_unsigned _

@[simp] theorem bits_rotr (x : Int) (n : UInt32) : bits (rotr x n) = Sha256.rotr (bits x) n := by
  simp [rotr, Sha256.rotr]

/-- A round reads and writes the variables modulo two to the power 32. -/
theorem words_round (w : List UInt32) (v : Variables) (t : Nat) :
    (round w v t).words = Sha256.round v.words (K.getD t 0, w.getD t 0) := by
  simp [round, Variables.words, Sha256.round]

theorem words_initial : initial.words = Sha256.initial := rfl

/-- A loop over the indices of two lists of one length is a loop over their elements. -/
private theorem foldl_range_zip {α β σ : Type} (f : σ → α × β → σ) (s : σ) (xs : List α)
    (ys : List β) (x : α) (y : β) (same : xs.length = ys.length) :
    (List.range xs.length).foldl (fun s t => f s (xs.getD t x, ys.getD t y)) s =
      (xs.zip ys).foldl f s := by
  have elements : (List.range xs.length).map (fun t => (xs.getD t x, ys.getD t y)) = xs.zip ys := by
    apply List.ext_getElem
    · simp [same]
    · intro i low high
      have inside : i < xs.length := by simpa using low
      have fits : i < ys.length := same ▸ inside
      simp [List.getD, List.getElem?_eq_getElem inside, List.getElem?_eq_getElem fits]
  rw [← elements, List.foldl_map]

/-- The rounds of a block are those of the standard. -/
theorem words_rounds (w : List UInt32) (v : Variables) (size : w.length = 64) :
    ((List.range 64).foldl (round w) v).words = (Sha256.constants.zip w).foldl Sha256.round v.words := by
  have step : ∀ (ts : List Nat) (v : Variables), (ts.foldl (round w) v).words =
      ts.foldl (fun s t => Sha256.round s (K.getD t 0, w.getD t 0)) v.words := by
    intro ts
    induction ts with
    | nil => intro v; rfl
    | cons t rest ih =>
      intro v
      rw [List.foldl_cons, List.foldl_cons, ih, words_round]
  rw [step, ← K_eq_constants]
  exact foldl_range_zip Sha256.round v.words K w 0 0 (by rw [size]; rfl)

private theorem take_set_last {w : List UInt32} {n : Nat} (fits : n < w.length) (x : UInt32) :
    (w.set n x).take (n + 1) = w.take n ++ [x] := by
  rw [List.take_add_one, List.take_set, List.set_eq_of_length_le (List.length_take_le n w)]
  simp [fits]

/-- A loop that fills the first `n` elements. -/
private theorem foldl_set (value : Nat → UInt32) (w : List UInt32) {n : Nat} (fits : n ≤ w.length) :
    let filled := (List.range n).foldl (fun w t => w.set t (value t)) w
    filled.length = w.length ∧ filled.take n = (List.range n).map value := by
  induction n with
  | zero => exact ⟨rfl, by simp⟩
  | succ n ih =>
    obtain ⟨length, filled⟩ := ih (by omega)
    simp only [List.range_succ, List.foldl_append, List.foldl_cons, List.foldl_nil]
    refine ⟨by rw [List.length_set, length], ?_⟩
    rw [take_set_last (by omega), filled, List.map_append, List.map_singleton]

/-- The element `back` before the end of a list whose reverse is known. -/
private theorem getD_back {w recent : List UInt32} (known : w.take recent.length = recent.reverse)
    {back : Nat} (positive : 0 < back) (within : back ≤ recent.length) :
    w[recent.length - back]? = recent[back - 1]? := by
  have early : recent.length - back < recent.length := by omega
  have taken : w[recent.length - back]? = (w.take recent.length)[recent.length - back]? := by
    rw [List.getElem?_take_of_lt early]
  rw [taken, known, List.getElem?_reverse early]
  congr 1
  omega

/-- A word of the schedule is made of the words before it. -/
theorem extendWord_next {w recent : List UInt32} (known : w.take recent.length = recent.reverse)
    (begun : 16 ≤ recent.length) (fits : recent.length < w.length) (count : Nat) :
    ∃ word, (extendWord w recent.length).take (recent.length + 1) = (word :: recent).reverse ∧
      Sha256.schedule (count + 1) recent = Sha256.schedule count (word :: recent) := by
  refine ⟨_, ?_, rfl⟩
  rw [extendWord, take_set_last fits, known, List.reverse_cons]
  have back2 := getD_back known (show 0 < 2 by decide) (by omega)
  have back7 := getD_back known (show 0 < 7 by decide) (by omega)
  have back15 := getD_back known (show 0 < 15 by decide) (by omega)
  have back16 := getD_back known (show 0 < 16 by decide) (by omega)
  simp [back2, back7, back15, back16]

/-- The schedule of the loop is that of the standard. -/
theorem foldl_extendWord (count : Nat) (w recent : List UInt32)
    (known : w.take recent.length = recent.reverse) (begun : 16 ≤ recent.length)
    (fits : recent.length + count = w.length) :
    (List.range' recent.length count).foldl extendWord w = Sha256.schedule count recent := by
  induction count generalizing w recent with
  | zero =>
    rw [List.take_of_length_le (by omega)] at known
    exact known
  | succ count ih =>
    obtain ⟨word, extended, next⟩ := extendWord_next known begun (by omega) count
    rw [List.range'_succ, List.foldl_cons, next]
    exact ih (extendWord w recent.length) (word :: recent) extended (by simp; omega)
      (by simp [extendWord]; omega)

theorem length_bytesWords (buf : List UInt8) : (Sha256.bytesWords buf).length = buf.length / 4 := by
  induction buf using Sha256.bytesWords.induct with
  | case1 a b c d rest ih => simp [Sha256.bytesWords, ih]; omega
  | case2 buf short =>
    have few : buf.length < 4 := by
      rcases buf with _ | ⟨a, _ | ⟨b, _ | ⟨c, _ | ⟨d, rest⟩⟩⟩⟩
      · simp
      · simp
      · simp
      · simp
      · exact (short a b c d rest rfl).elim
    rw [Sha256.bytesWords, List.length_nil]
    · omega
    · exact short

/-- The words of a buffer are those that `getUint32` reads. -/
theorem getElem?_bytesWords (buf : List UInt8) (i : Nat) (inside : 4 * i + 4 ≤ buf.length) :
    (Sha256.bytesWords buf)[i]? = some (getUint32 buf (4 * i)) := by
  induction i generalizing buf with
  | zero =>
    rcases buf with _ | ⟨a, _ | ⟨b, _ | ⟨c, _ | ⟨d, rest⟩⟩⟩⟩ <;> simp at inside
    · rfl
  | succ i ih =>
    rcases buf with _ | ⟨a, _ | ⟨b, _ | ⟨c, _ | ⟨d, rest⟩⟩⟩⟩ <;> simp at inside
    rw [Sha256.bytesWords, List.getElem?_cons_succ, ih rest (by omega)]
    simp only [getUint32, Nat.mul_add, Nat.mul_one, Nat.add_right_comm _ 4]
    rfl

/-- The words of a block, as they stand in the buffer. -/
theorem block_words {buf : List UInt8} {i : Nat} (inside : i * 64 + 64 ≤ buf.length) :
    ((Sha256.bytesWords buf).drop (16 * i)).take 16 =
      (List.range 16).map fun t => getUint32 buf (i * 64 + t * 4) := by
  apply List.ext_getElem?
  intro t
  by_cases early : t < 16
  · rw [List.getElem?_take_of_lt early, List.getElem?_drop, getElem?_bytesWords _ _ (by omega)]
    simp [early, show 4 * (16 * i + t) = i * 64 + t * 4 by omega]
  · rw [List.getElem?_eq_none (by simp; omega), List.getElem?_eq_none (by simp; omega)]

private theorem length_schedule (count : Nat) (recent : List UInt32) :
    (Sha256.schedule count recent).length = recent.length + count := by
  induction count generalizing recent with
  | zero => exact List.length_reverse
  | succ count ih =>
    rw [Sha256.schedule, ih, List.length_cons]
    omega

/-- A block is compressed as the standard says. -/
theorem words_block {buf : List UInt8} {state : Variables × List UInt32} {i : Nat}
    (size : state.2.length = 64) (inside : i * 64 + 64 ≤ buf.length) :
    (block buf state (i * 64)).1.words =
        Sha256.compress state.1.words (((Sha256.bytesWords buf).drop (16 * i)).take 16) ∧
      (block buf state (i * 64)).2.length = 64 := by
  obtain ⟨length, loaded⟩ := foldl_set (fun t => getUint32 buf (i * 64 + t * 4)) state.2
    (show 16 ≤ state.2.length by omega)
  rw [size] at length
  rw [← block_words inside] at loaded
  generalize held : ((Sha256.bytesWords buf).drop (16 * i)).take 16 = words at loaded ⊢
  have sixteen : words.reverse.length = 16 := by
    rw [List.length_reverse, ← loaded, List.length_take, length]
    rfl
  have schedule := foldl_extendWord 48 _ words.reverse (by rw [sixteen, loaded, List.reverse_reverse])
    (by omega) (by rw [sixteen, length])
  rw [sixteen] at schedule
  have full : (Sha256.schedule 48 words.reverse).length = 64 := by rw [length_schedule, sixteen]
  have rounds := words_rounds (Sha256.schedule 48 words.reverse) state.1 full
  have loop : (List.range' 16 48).foldl extendWord
      ((List.range 16).foldl (loadWord buf (i * 64)) state.2) = Sha256.schedule 48 words.reverse :=
    schedule
  constructor
  · rw [block, loop, Sha256.compress, ← rounds]
    simp [Variables.words]
  · rw [block, loop]
    exact full

/-- Block after block. -/
theorem words_blocks {b : List UInt8} (count i : Nat) {s : Variables × List UInt32}
    (size : s.2.length = 64) (inside : (i + count) * 64 ≤ b.length) :
    (((List.range' i count).map (· * 64)).foldl (block b) s).1.words =
      Sha256.blocks count s.1.words ((Sha256.bytesWords b).drop (16 * i)) := by
  induction count generalizing i s with
  | zero => rfl
  | succ count ih =>
    have first : i * 64 + 64 ≤ b.length := by omega
    obtain ⟨compressed, kept⟩ := words_block size first
    rw [List.range'_succ, List.map_cons, List.foldl_cons, ih (i + 1) kept (by omega), compressed,
      Sha256.blocks, List.drop_drop, Nat.mul_succ]

/-! ### Padding -/

/-- The size of the padded message, where `<<` and `>>` do not meet the sign. -/
theorem paddedLength_eq {ml : Nat} (short : ml < 2147483576) :
    paddedLength ml = (((ml + 8) / 64 + 1) * 64 : Nat) := by
  have right : shiftRight (ml + 8 : Nat) 6 = ((ml + 8) >>> 6 : Nat) :=
    JsNumbers.shiftRight_natCast (by omega) (by decide)
  have quotient : (ml + 8) >>> 6 = (ml + 8) / 64 := Nat.shiftRight_eq_div_pow _ 6
  have product : ((ml + 8) / 64 + 1) <<< 6 = ((ml + 8) / 64 + 1) * 64 := Nat.shiftLeft_eq _ 6
  have left : shiftLeft (((ml + 8) / 64 + 1 : Nat) : Int) 6 = (((ml + 8) / 64 + 1) <<< 6 : Nat) := by
    apply JsNumbers.shiftLeft_natCast (by decide)
    show ((ml + 8) / 64 + 1) <<< 6 < _
    rw [product]
    omega
  rw [paddedLength, right, quotient]
  rw [product] at left
  exact left

/-- Four bytes in the middle of a buffer are replaced. -/
private theorem setUint32_append {front middle : List UInt8} (back : List UInt8) {offset : Nat}
    (starts : front.length = offset) (four : middle.length = 4) (value : Int) :
    setUint32 (front ++ middle ++ back) offset value =
      front ++ Sha256.wordBytes (bits value) ++ back := by
  have taken : (front ++ middle ++ back).take offset = front := by
    rw [List.append_assoc, ← starts, List.take_left]
  have dropped : (front ++ middle ++ back).drop (offset + 4) = back := by
    rw [← starts, ← four, ← List.length_append, List.drop_left]
  rw [setUint32, taken, dropped]

/-- The two words of the length in bits, as a double and as 64 bits. -/
private theorem length_words {ml : Nat} (short : ml < 2147483576) :
    bits ((ml : Int) * 8 / 0x100000000) = (UInt64.ofNat (8 * ml) >>> 32).toUInt32 ∧
      bits (shiftRightZero ((ml : Int) * 8) 0) = (UInt64.ofNat (8 * ml)).toUInt32 := by
  have whole : (ml : Int) * 8 = (8 * ml : Nat) := by omega
  have high : ((8 * ml : Nat) : Int) / 0x100000000 = (8 * ml / 4294967296 : Nat) := by omega
  constructor
  · rw [whole, high, JsNumbers.bits_natCast]
    apply UInt32.toNat_inj.mp
    simp [Nat.shiftRight_eq_div_pow]
    omega
  · rw [JsNumbers.shiftRightZero_zero, JsNumbers.bits_unsigned, whole, JsNumbers.bits_natCast]
    apply UInt32.toNat_inj.mp
    simp

/-- The padded message is that of the standard. -/
theorem padded_eq_pad {data : List UInt8} (short : data.length < 2147483576) :
    padded data = Sha256.pad data := by
  obtain ⟨high, low⟩ := length_words short
  have size : (paddedLength data.length).toNat = ((data.length + 8) / 64 + 1) * 64 := by
    rw [paddedLength_eq short, Int.toNat_natCast]
  generalize zeros : (119 - data.length % 64) % 64 = z
  have room : ((data.length + 8) / 64 + 1) * 64 = data.length + 1 + z + 4 + 4 := by omega
  have blank : data ++ (List.replicate (data.length + 1 + z + 4 + 4) (0 : UInt8)).drop data.length =
      data ++ 0 :: (List.replicate z 0 ++ List.replicate 4 0 ++ List.replicate 4 0) := by
    have left : data.length + 1 + z + 4 + 4 - data.length = z + 4 + 4 + 1 := by omega
    rw [List.drop_replicate, ← List.replicate_add, ← List.replicate_add, ← List.replicate_succ, left]
  have marked : (data ++ 0 :: (List.replicate z 0 ++ List.replicate 4 0 ++ List.replicate 4 0)).set
        data.length (0x80 : UInt8) =
      (data ++ [0x80] ++ List.replicate z 0) ++ List.replicate 4 0 ++ List.replicate 4 0 := by
    rw [List.set_append_right _ _ (Nat.le_refl _), Nat.sub_self, List.set_cons_zero]
    simp
  have starts : (data ++ [0x80] ++ List.replicate z 0).length =
      data.length + 1 + z + 4 + 4 - 8 := by
    simp
    omega
  have next : (data ++ [0x80] ++ List.replicate z 0 ++
      Sha256.wordBytes (bits ((data.length : Int) * 8 / 0x100000000))).length =
        data.length + 1 + z + 4 + 4 - 4 := by
    rw [List.length_append, starts]
    rfl
  simp only [padded, Sha256.pad, size, zeros, room, blank, marked]
  rw [setUint32_append _ starts List.length_replicate]
  have ends := setUint32_append [] next (List.length_replicate (n := 4) (a := (0 : UInt8)))
    (shiftRightZero ((data.length : Int) * 8) 0)
  rw [List.append_nil, List.append_nil] at ends
  rw [ends, high, low]

/-- The digest is that of the standard. -/
theorem sha256_eq {data : List UInt8} (short : data.length < 2147483576) :
    sha256 data = some (Sha256.sha256 data) := by
  have size := paddedLength_eq short
  have fits : ¬(paddedLength data.length < data.length ∨ paddedLength data.length < 8) := by omega
  have whole : (padded data).length = ((data.length + 8) / 64 + 1) * 64 := by
    rw [padded_eq_pad short]
    simp [Sha256.pad, Sha256.wordBytes]
    omega
  have count : (paddedLength data.length).toNat / 64 = (data.length + 8) / 64 + 1 := by
    rw [size, Int.toNat_natCast, Nat.mul_div_cancel _ (by decide)]
  have words : (Sha256.bytesWords (padded data)).length / 16 = (data.length + 8) / 64 + 1 := by
    rw [length_bytesWords, whole]
    omega
  have run := words_blocks ((data.length + 8) / 64 + 1) 0 (b := padded data)
    (s := (initial, List.replicate 64 0)) List.length_replicate (by omega)
  rw [words_initial, Nat.mul_zero, List.drop_zero] at run
  simp only [sha256, if_neg fits, count, List.range_eq_range']
  rw [Sha256.sha256, ← padded_eq_pad short, words, ← run]
  simp [Sha256.digest, Variables.words]

/-- What is hashed is short enough to be padded, and its digest is the standard's. -/
theorem digest_of_sha256 {data digest : List UInt8} (hashes : sha256 data = some digest) :
    data.length < 2147483576 ∧ digest = Sha256.sha256 data := by
  have size : paddedLength data.length =
      ((((data.length + 8 : Nat) : Int).bmod 4294967296 / 64 + 1) * 64).bmod 4294967296 := by
    rw [paddedLength, JsNumbers.shiftLeft_eq_bmod _ (by decide),
      JsNumbers.shiftRight_eq_bmod _ (by decide)]
    rfl
  have short : data.length < 2147483576 := by
    by_contra long
    have refused : paddedLength data.length < data.length ∨ paddedLength data.length < 8 := by
      rw [size]
      simp only [Int.bmod]
      omega
    rw [sha256, if_pos refused] at hashes
    cases hashes
  rw [sha256_eq short] at hashes
  exact ⟨short, (Option.some.inj hashes).symm⟩

/-! ### UTF-8 -/

/-- The four bytes of a character above the first plane. -/
def fourBytes (code : Nat) : List UInt8 :=
  [0xf0 ||| code >>> 18, 0x80 ||| (code >>> 12 &&& 0x3f), 0x80 ||| (code >>> 6 &&& 0x3f),
    0x80 ||| (code &&& 0x3f)].map UInt8.ofNat

/-- The character of a leading code unit and the 10 bits after it. -/
def pairCode (code lo : Nat) : Nat := 0x10000 + (code &&& 0x3ff) <<< 10 + (lo &&& 0x3ff)

/-- `utf8Encode`.  A code unit stays far below two to the power 31, so the
operators are those of natural numbers.  A leading code unit takes the next one
whatever that is; past the end, `charCodeAt` is not a number and counts as 0. -/
def utf8Encode : Text → List UInt8
  | [] => []
  | u :: rest =>
    let code := u.toNat
    if code < 0x80 then UInt8.ofNat code :: utf8Encode rest
    else if code < 0x800 then
      [0xc0 ||| code >>> 6, 0x80 ||| (code &&& 0x3f)].map UInt8.ofNat ++ utf8Encode rest
    else if 0xd800 ≤ code ∧ code ≤ 0xdbff then
      match rest with
      | [] => fourBytes (pairCode code 0)
      | lo :: rest => fourBytes (pairCode code lo.toNat) ++ utf8Encode rest
    else
      [0xe0 ||| code >>> 12, 0x80 ||| (code >>> 6 &&& 0x3f), 0x80 ||| (code &&& 0x3f)].map UInt8.ofNat ++
        utf8Encode rest

/-- The characters of a well-formed text: no code unit of a pair stands alone. -/
def characters : Text → Option (List Char)
  | [] => some []
  | u :: rest =>
    if isLeading u then
      match rest with
      | [] => none
      | lo :: rest =>
        if isTrailing lo then
          (characters rest).map (Char.ofNat (pairCode u.toNat lo.toNat) :: ·)
        else none
    else if isTrailing u then none
    else (characters rest).map (Char.ofNat u.toNat :: ·)

/-! ### The hash -/

/-- The global functions of the host: browsers and Hermes have `atob`, and
without it the client takes the `Buffer` of Node.js. -/
structure Host where
  atob : Bool

/-- The characters a decoder of base64 is given; those outside ASCII it does not know. -/
def letters (t : Text) : List Char := t.map fun u => Char.ofNat u.toNat

/-- `base64ToBytes`.  A text that `atob` refuses is an exception. -/
def base64ToBytes (host : Host) (b64 : Text) : Option (List UInt8) :=
  if host.atob then Base64.decodeForgiving (letters b64) else some (Base64.decodeLoose (letters b64))

/-- `bytesToBase64`; `btoa` and `Buffer` write the same. -/
def bytesToBase64 (bytes : List UInt8) : Text := utf16 (String.ofList (Base64.encode bytes))

/-- `client.ts::hashPhone`. -/
def hashPhone (host : Host) (saltB64 phone : Text) : Option Text := do
  let salt ← base64ToBytes host saltB64
  let digest ← sha256 (salt ++ utf8Encode phone)
  some (bytesToBase64 digest)

/-! ### It is UTF-8 -/

private theorem mark_two {n : Nat} (small : n < 32) : 0xc0 ||| n = n + 0xc0 := by
  have joined : 0xc0 + n = 0xc0 ||| n := Nat.two_pow_add_eq_or_of_lt (i := 5) small 6
  omega

private theorem mark_three {n : Nat} (small : n < 16) : 0xe0 ||| n = n + 0xe0 := by
  have joined : 0xe0 + n = 0xe0 ||| n := Nat.two_pow_add_eq_or_of_lt (i := 4) small 14
  omega

private theorem mark_four {n : Nat} (small : n < 8) : 0xf0 ||| n = n + 0xf0 := by
  have joined : 0xf0 + n = 0xf0 ||| n := Nat.two_pow_add_eq_or_of_lt (i := 3) small 30
  omega

private theorem mark_tail (n : Nat) : 0x80 ||| (n &&& 0x3f) = n % 64 + 0x80 := by
  have masked : n &&& 0x3f = n % 64 := Nat.and_two_pow_sub_one_eq_mod n 6
  have joined : 0x80 + n % 64 = 0x80 ||| n % 64 :=
    Nat.two_pow_add_eq_or_of_lt (i := 6) (by omega) 2
  rw [masked]
  omega

private theorem shift_six (n : Nat) : n >>> 6 = n / 64 := Nat.shiftRight_eq_div_pow n 6

private theorem shift_twelve (n : Nat) : n >>> 12 = n / 4096 := Nat.shiftRight_eq_div_pow n 12

private theorem shift_eighteen (n : Nat) : n >>> 18 = n / 262144 := Nat.shiftRight_eq_div_pow n 18

private theorem pairCode_eq (code lo : Nat) :
    pairCode code lo = 0x10000 + code % 1024 * 1024 + lo % 1024 := by
  have high : code &&& 0x3ff = code % 1024 := Nat.and_two_pow_sub_one_eq_mod code 10
  have low : lo &&& 0x3ff = lo % 1024 := Nat.and_two_pow_sub_one_eq_mod lo 10
  have shifted : (code % 1024) <<< 10 = code % 1024 * 1024 := Nat.shiftLeft_eq _ 10
  rw [pairCode, high, low, shifted]

/-- A pair stands for a character above the first plane. -/
theorem pairCode_range (code lo : Nat) : 0x10000 ≤ pairCode code lo ∧ pairCode code lo < 0x110000 := by
  rw [pairCode_eq]
  omega

theorem utf8EncodeChar_eq (c : Char) : String.utf8EncodeChar c =
    if c.toNat ≤ 0x7f then [UInt8.ofNat c.toNat]
    else if c.toNat ≤ 0x7ff then
      [UInt8.ofNat (c.toNat / 64 % 32 + 0xc0), UInt8.ofNat (c.toNat % 64 + 0x80)]
    else if c.toNat ≤ 0xffff then
      [UInt8.ofNat (c.toNat / 4096 % 16 + 0xe0), UInt8.ofNat (c.toNat / 64 % 64 + 0x80),
        UInt8.ofNat (c.toNat % 64 + 0x80)]
    else
      [UInt8.ofNat (c.toNat / 262144 % 8 + 0xf0), UInt8.ofNat (c.toNat / 4096 % 64 + 0x80),
        UInt8.ofNat (c.toNat / 64 % 64 + 0x80), UInt8.ofNat (c.toNat % 64 + 0x80)] := rfl

/-- The pair of a character above the first plane. -/
theorem fourBytes_pair (code lo : Nat) :
    fourBytes (pairCode code lo) = String.utf8EncodeChar (Char.ofNat (pairCode code lo)) := by
  obtain ⟨low, high⟩ := pairCode_range code lo
  generalize pairCode code lo = n at low high
  have valid : n.isValidChar := .inr ⟨by omega, high⟩
  have first : n / 262144 < 8 := by omega
  rw [utf8EncodeChar_eq, toNat_ofNat valid, if_neg (by omega), if_neg (by omega), if_neg (by omega),
    Nat.mod_eq_of_lt first, fourBytes, shift_six, shift_twelve, shift_eighteen, mark_four first,
    mark_tail, mark_tail, mark_tail]
  rfl

/-- Half a pair, told by its number. -/
theorem isLeading_iff (u : UInt16) : isLeading u = true ↔ 0xd800 ≤ u.toNat ∧ u.toNat ≤ 0xdbff := by
  simp only [isLeading, Bool.and_eq_true, decide_eq_true_eq, UInt16.le_iff_toNat_le,
    UInt16.lt_iff_toNat_lt, UInt16.toNat_ofNat]
  omega

theorem isTrailing_iff (u : UInt16) : isTrailing u = true ↔ 0xdc00 ≤ u.toNat ∧ u.toNat ≤ 0xdfff := by
  simp only [isTrailing, Bool.and_eq_true, decide_eq_true_eq, UInt16.le_iff_toNat_le,
    UInt16.lt_iff_toNat_lt, UInt16.toNat_ofNat]
  omega

/-- A code unit that is not half a pair is one character. -/
theorem utf8Encode_unit {u : UInt16} (leads : ¬isLeading u = true) (trails : ¬isTrailing u = true)
    (rest : Text) :
    utf8Encode (u :: rest) = String.utf8EncodeChar (Char.ofNat u.toNat) ++ utf8Encode rest := by
  rw [isLeading_iff] at leads
  rw [isTrailing_iff] at trails
  have small := u.toNat_lt
  have valid : u.toNat.isValidChar := by
    unfold Nat.isValidChar
    omega
  rw [utf8Encode.eq_def, utf8EncodeChar_eq, toNat_ofNat valid]
  dsimp only
  by_cases one : u.toNat < 0x80
  · rw [if_pos one, if_pos (by omega)]
    rfl
  rw [if_neg one, if_neg (show ¬u.toNat ≤ 0x7f by omega)]
  by_cases two : u.toNat < 0x800
  · have first : u.toNat / 64 < 32 := by omega
    rw [if_pos two, if_pos (by omega), shift_six, mark_two first, mark_tail, Nat.mod_eq_of_lt first]
    rfl
  · have first : u.toNat / 4096 < 16 := by omega
    rw [if_neg two, if_neg leads, if_neg (show ¬u.toNat ≤ 0x7ff by omega), if_pos (by omega), shift_six,
      shift_twelve, mark_three first, mark_tail, mark_tail, Nat.mod_eq_of_lt first]
    rfl

/-- A pair of code units is one character. -/
theorem utf8Encode_pair {u : UInt16} (leads : isLeading u = true) (lo : UInt16) (rest : Text) :
    utf8Encode (u :: lo :: rest) =
      String.utf8EncodeChar (Char.ofNat (pairCode u.toNat lo.toNat)) ++ utf8Encode rest := by
  rw [isLeading_iff] at leads
  rw [utf8Encode.eq_def, ← fourBytes_pair]
  dsimp only
  rw [if_neg (by omega), if_neg (by omega), if_pos leads]

/-- The client's bytes of a well-formed text are the UTF-8 of its characters. -/
theorem utf8Encode_of_characters {t : Text} {cs : List Char} (read : characters t = some cs) :
    utf8Encode t = cs.flatMap String.utf8EncodeChar := by
  induction t using characters.induct generalizing cs with
  | case1 =>
    cases read
    rfl
  | case2 u leads =>
    rw [characters, if_pos leads] at read
    cases read
  | case3 u leads lo rest trails ih =>
    simp only [characters, leads, trails, if_true, Option.map_eq_some_iff] at read
    obtain ⟨others, read, rfl⟩ := read
    rw [utf8Encode_pair leads, ih read, List.flatMap_cons]
  | case4 u leads lo rest trails =>
    rw [characters, if_pos leads, if_neg trails] at read
    cases read
  | case5 u rest leads trails =>
    rw [characters.eq_def] at read
    dsimp only at read
    rw [if_neg leads, if_pos trails] at read
    cases read
  | case6 u rest leads trails ih =>
    rw [characters.eq_def] at read
    dsimp only at read
    rw [if_neg leads, if_neg trails] at read
    obtain ⟨others, known, rfl⟩ := Option.map_eq_some_iff.mp read
    rw [utf8Encode_unit leads trails, ih known, List.flatMap_cons]

private theorem toList_loop (bytes : ByteArray) (i : Nat) (read : List UInt8) :
    ByteArray.toList.loop bytes i read = read.reverse ++ bytes.data.toList.drop i := by
  induction i, read using ByteArray.toList.loop.induct bytes with
  | case1 i read inside ih =>
    have inside' : i < bytes.data.toList.length := inside
    have element : bytes.get! i = bytes.data.toList[i] := by
      rw [Array.getElem_toList]
      exact getElem!_pos bytes.data i inside
    rw [ByteArray.toList.loop, if_pos inside, ih, List.drop_eq_getElem_cons inside', element]
    simp
  | case2 i read outside =>
    have past : bytes.data.toList.drop i = [] := List.drop_eq_nil_of_le (Nat.le_of_not_lt outside)
    rw [ByteArray.toList.loop, if_neg outside, past, List.append_nil]

/-- The bytes of a string are the UTF-8 of its characters. -/
theorem utf8_eq (s : String) : DiscoveryStore.utf8 s = s.toList.flatMap String.utf8EncodeChar := by
  have bytes : s.toUTF8 = (s.toList.flatMap String.utf8EncodeChar).toByteArray :=
    String.utf8Encode_toList.symm
  rw [DiscoveryStore.utf8, ByteArray.toList, toList_loop, bytes, List.toList_data_toByteArray]
  rfl

/-! ### It is the hash of Discovery -/

theorem utf16_cons (c : Char) (cs : List Char) :
    utf16 (String.ofList (c :: cs)) = utf16 (String.ofList [c]) ++ utf16 (String.ofList cs) := by
  simp [utf16]

theorem utf16_single {c : Char} (low : c.toNat < 0x10000) :
    utf16 (String.ofList [c]) = [unit c] := by
  simp [utf16, low]

private theorem letters_ascii (cs : List Char) (ascii : ∀ c ∈ cs, c.toNat < 128) :
    letters (utf16 (String.ofList cs)) = cs := by
  induction cs with
  | nil => rfl
  | cons c rest ih =>
    rw [List.forall_mem_cons] at ascii
    have back : Char.ofNat (unit c).toNat = c := by
      rw [unit, UInt16.toNat_ofNat', Nat.mod_eq_of_lt (by omega), Char.ofNat_toNat]
    rw [utf16_cons, utf16_single (by omega), List.singleton_append, letters, List.map_cons, back]
    exact congrArg (c :: ·) (ih ascii.2)

/-- The code units of characters of the first plane are those characters. -/
theorem utf16_units {cs : List Char} (low : ∀ c ∈ cs, c.toNat < 0x10000) :
    utf16 (String.ofList cs) = cs.map unit := by
  induction cs with
  | nil => rfl
  | cons c rest ih =>
    rw [List.forall_mem_cons] at low
    rw [utf16_cons, utf16_single low.1, ih low.2]
    rfl

/-- What is encoded is ASCII. -/
theorem bytesToBase64_eq (bytes : List UInt8) :
    bytesToBase64 bytes = (Base64.encode bytes).map unit :=
  utf16_units fun c member => Nat.lt_trans (Base64.encode_ascii bytes c member) (by decide)

/-- The salt that Discovery sends is read back, whichever decoder the host has. -/
theorem base64ToBytes_salt (host : Host) (salt : List UInt8) :
    base64ToBytes host (bytesToBase64 salt) = some salt := by
  rw [base64ToBytes, bytesToBase64, letters_ascii _ (Base64.encode_ascii salt),
    Base64.decodeForgiving_encode, Base64.decodeLoose_encode]
  exact ite_self _

theorem utf16_pair {c : Char} (high : ¬c.toNat < 0x10000) :
    utf16 (String.ofList [c]) =
      [UInt16.ofNat (0xD800 + (c.toNat - 0x10000) / 0x400),
        UInt16.ofNat (0xDC00 + (c.toNat - 0x10000) % 0x400)] := by
  simp [utf16, high]

/-- A unit of its own is a character. -/
theorem characters_cons {u : UInt16} (leads : ¬isLeading u = true) (trails : ¬isTrailing u = true)
    (rest : Text) : characters (u :: rest) = (characters rest).map (Char.ofNat u.toNat :: ·) := by
  rw [characters.eq_def]
  dsimp only
  rw [if_neg leads, if_neg trails]

/-- A string's code units are well formed, and its characters are read back. -/
theorem characters_utf16 (cs : List Char) : characters (utf16 (String.ofList cs)) = some cs := by
  induction cs with
  | nil => rfl
  | cons c rest ih =>
    have valid : c.toNat < 0xd800 ∨ 0xdfff < c.toNat ∧ c.toNat < 0x110000 := c.valid
    rw [utf16_cons]
    by_cases low : c.toNat < 0x10000
    · have number : (unit c).toNat = c.toNat := by
        rw [unit, UInt16.toNat_ofNat', Nat.mod_eq_of_lt low]
      have leads : ¬isLeading (unit c) = true := by rw [isLeading_iff, number]; omega
      have trails : ¬isTrailing (unit c) = true := by rw [isTrailing_iff, number]; omega
      rw [utf16_single low, List.singleton_append, characters_cons leads trails, ih, number,
        Char.ofNat_toNat]
      rfl
    · have first : (UInt16.ofNat (0xD800 + (c.toNat - 0x10000) / 0x400)).toNat =
          0xD800 + (c.toNat - 0x10000) / 0x400 := by
        rw [UInt16.toNat_ofNat', Nat.mod_eq_of_lt (by omega)]
      have second : (UInt16.ofNat (0xDC00 + (c.toNat - 0x10000) % 0x400)).toNat =
          0xDC00 + (c.toNat - 0x10000) % 0x400 := by
        rw [UInt16.toNat_ofNat', Nat.mod_eq_of_lt (by omega)]
      have leads : isLeading (UInt16.ofNat (0xD800 + (c.toNat - 0x10000) / 0x400)) = true := by
        rw [isLeading_iff, first]
        omega
      have trails : isTrailing (UInt16.ofNat (0xDC00 + (c.toNat - 0x10000) % 0x400)) = true := by
        rw [isTrailing_iff, second]
        omega
      have number : 0x10000 + (0xD800 + (c.toNat - 0x10000) / 0x400) % 1024 * 1024 +
          (0xDC00 + (c.toNat - 0x10000) % 0x400) % 1024 = c.toNat := by omega
      rw [utf16_pair low, List.cons_append, List.singleton_append, characters, if_pos leads,
        if_pos trails, ih, pairCode_eq, first, second, number, Char.ofNat_toNat]
      rfl

/-- A well-formed text is the code units of its characters. -/
theorem utf16_characters {t : Text} {cs : List Char} (read : characters t = some cs) :
    utf16 (String.ofList cs) = t := by
  induction t using characters.induct generalizing cs with
  | case1 =>
    cases read
    rfl
  | case2 u leads =>
    rw [characters, if_pos leads] at read
    cases read
  | case3 u leads lo rest trails ih =>
    rw [characters, if_pos leads, if_pos trails] at read
    obtain ⟨others, known, rfl⟩ := Option.map_eq_some_iff.mp read
    obtain ⟨low, high⟩ := pairCode_range u.toNat lo.toNat
    have number := toNat_ofNat (n := pairCode u.toNat lo.toNat) (.inr ⟨by omega, high⟩)
    have sum := pairCode_eq u.toNat lo.toNat
    rw [isLeading_iff] at leads
    rw [isTrailing_iff] at trails
    have first : 0xD800 + (pairCode u.toNat lo.toNat - 0x10000) / 0x400 = u.toNat := by omega
    have second : 0xDC00 + (pairCode u.toNat lo.toNat - 0x10000) % 0x400 = lo.toNat := by omega
    rw [utf16_cons, utf16_pair (by omega), number, first, second, ih known]
    simp
  | case4 u leads lo rest trails =>
    rw [characters, if_pos leads, if_neg trails] at read
    cases read
  | case5 u rest leads trails =>
    rw [characters.eq_def] at read
    dsimp only at read
    rw [if_neg leads, if_pos trails] at read
    cases read
  | case6 u rest leads trails ih =>
    rw [characters.eq_def] at read
    dsimp only at read
    rw [if_neg leads, if_neg trails] at read
    obtain ⟨others, known, rfl⟩ := Option.map_eq_some_iff.mp read
    rw [isLeading_iff] at leads
    rw [isTrailing_iff] at trails
    have small := u.toNat_lt
    have valid : u.toNat.isValidChar := by
      unfold Nat.isValidChar
      omega
    have number := toNat_ofNat valid
    rw [utf16_cons, utf16_single (by omega), unit, number, ih known]
    simp

/-- Client and server hash every phone number to the same text, for every salt,
every well-formed phone and whatever decoder of base64 the host has. -/
theorem hashPhone_agrees (host : Host) (salt : List UInt8) {phone : Text} {cs : List Char}
    (wellFormed : characters phone = some cs)
    (short : (salt ++ DiscoveryStore.utf8 (String.ofList cs)).length < 2147483520) :
    hashPhone host (bytesToBase64 salt) phone =
        some (utf16 (DiscoveryStore.hashPhone salt (String.ofList cs))) ∧
      DiscoveryStore.hashPhone salt (String.ofList cs) =
        String.ofList (Base64.encode (Sha256.sha256 (salt ++ DiscoveryStore.utf8 (String.ofList cs)))) := by
  have bytes : utf8Encode phone = DiscoveryStore.utf8 (String.ofList cs) := by
    rw [utf8Encode_of_characters wellFormed, utf8_eq, String.toList_ofList]
  refine ⟨?_, rfl⟩
  rw [hashPhone, base64ToBytes_salt, bytes, Option.bind_eq_bind, Option.bind_some,
    sha256_eq (by omega)]
  rfl

/-- The number "+234" and an emoji, under a salt of three bytes. -/
theorem hashPhone_agrees_emoji :
    hashPhone ⟨true⟩ (bytesToBase64 [1, 2, 255]) (utf16 "+234😀") =
        some (utf16 (DiscoveryStore.hashPhone [1, 2, 255] "+234😀")) ∧
      DiscoveryStore.hashPhone [1, 2, 255] "+234😀" =
        String.ofList (Base64.encode (Sha256.sha256 ([1, 2, 255] ++ DiscoveryStore.utf8 "+234😀"))) :=
  hashPhone_agrees ⟨true⟩ [1, 2, 255] (characters_utf16 ['+', '2', '3', '4', '😀']) (by
    rw [utf8_eq]
    decide +kernel)

end Hwfa.ClientHashing
