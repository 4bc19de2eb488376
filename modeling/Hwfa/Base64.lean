/-!
Standard base64 with padding (RFC 4648), over lists of bytes and characters.

`decode` follows the usual lenient decoders in two points: line breaks are
skipped, and the unused low bits of a last partial group are not checked.
`decodeSkipping` is more lenient still: it skips every character outside the
alphabet and does not ask for padding.  All of them read back exactly what `encode`
writes.  `decodeForgiving` is the decoder of web browsers, which takes the
padding or leaves it, and `decodeLoose` the one of Node.js, which takes anything.
`encodeRawUrl` and `decodeRawUrl` are those of the alphabet for file names, without
padding.
-/

namespace Hwfa.Base64

/-- The character of a 6-bit value. -/
def symbol (n : Nat) : Char :=
  if n < 26 then Char.ofNat ('A'.toNat + n)
  else if n < 52 then Char.ofNat ('a'.toNat + (n - 26))
  else if n < 62 then Char.ofNat ('0'.toNat + (n - 52))
  else if n = 62 then '+' else '/'

/-- The 6-bit value of a character of the alphabet. -/
def value (c : Char) : Option Nat :=
  if 'A' ≤ c ∧ c ≤ 'Z' then some (c.toNat - 'A'.toNat)
  else if 'a' ≤ c ∧ c ≤ 'z' then some (c.toNat - 'a'.toNat + 26)
  else if '0' ≤ c ∧ c ≤ '9' then some (c.toNat - '0'.toNat + 52)
  else if c = '+' then some 62
  else if c = '/' then some 63
  else none

def encode : List UInt8 → List Char
  | [] => []
  | [a] => [symbol (a.toNat / 4), symbol (a.toNat % 4 * 16), '=', '=']
  | [a, b] =>
    [symbol (a.toNat / 4), symbol (a.toNat % 4 * 16 + b.toNat / 16), symbol (b.toNat % 16 * 4), '=']
  | a :: b :: c :: rest =>
    symbol (a.toNat / 4) :: symbol (a.toNat % 4 * 16 + b.toNat / 16) ::
      symbol (b.toNat % 16 * 4 + c.toNat / 64) :: symbol (c.toNat % 64) :: encode rest

/-- The bytes of a group, each out of two neighbouring sextets. -/
def firstByte (w x : Nat) : UInt8 := UInt8.ofNat (w * 4 + x / 16)
def secondByte (x y : Nat) : UInt8 := UInt8.ofNat (x % 16 * 16 + y / 4)
def thirdByte (y z : Nat) : UInt8 := UInt8.ofNat (y % 4 * 64 + z)

/-- The groups of four characters, the last of which may be padded. -/
def decodeGroups : List Char → Option (List UInt8)
  | [] => some []
  | w :: x :: y :: z :: rest => do
    let w ← value w
    let x ← value x
    if y = '=' ∧ z = '=' ∧ rest = [] then some [firstByte w x] else
    let y ← value y
    if z = '=' ∧ rest = [] then some [firstByte w x, secondByte x y] else
    let z ← value z
    let rest ← decodeGroups rest
    some (firstByte w x :: secondByte x y :: thirdByte y z :: rest)
  | _ => none

def decode (s : List Char) : Option (List UInt8) :=
  decodeGroups (s.filter fun c => c ≠ '\n' ∧ c ≠ '\r')

/-- What has been read of a group: some of its sextets, or its padding. -/
inductive Group where
  | start
  | one (w : Nat)
  | two (w x : Nat)
  | three (w x y : Nat)
  | padded
  | closed

/-- The decoder that skips what is not in the alphabet.  A lone sextet, half a
padding and anything after the padding are refused. -/
def decodeFrom : Group → List Char → Option (List UInt8)
  | .start, [] => some []
  | .one _, [] => none
  | .two w x, [] => some [firstByte w x]
  | .three w x y, [] => some [firstByte w x, secondByte x y]
  | .padded, [] => none
  | .closed, [] => some []
  | group, c :: rest =>
    match value c, group with
    | some d, .start => decodeFrom (.one d) rest
    | some d, .one w => decodeFrom (.two w d) rest
    | some d, .two w x => decodeFrom (.three w x d) rest
    | some d, .three w x y =>
      (decodeFrom .start rest).map fun bytes =>
        firstByte w x :: secondByte x y :: thirdByte y d :: bytes
    | some _, .padded | some _, .closed => none
    | none, group =>
      if c = '=' then
        match group with
        | .two w x => (decodeFrom .padded rest).map fun bytes => firstByte w x :: bytes
        | .three w x y =>
          (decodeFrom .closed rest).map fun bytes => firstByte w x :: secondByte x y :: bytes
        | .padded => decodeFrom .closed rest
        | .start | .one _ | .closed => none
      else decodeFrom group rest

def decodeSkipping (s : List Char) : Option (List UInt8) := decodeFrom .start s

/-- The bytes of sextets, the last group of which may be short. -/
def bytesOf : List Nat → List UInt8
  | w :: x :: y :: z :: rest => firstByte w x :: secondByte x y :: thirdByte y z :: bytesOf rest
  | [w, x, y] => [firstByte w x, secondByte x y]
  | [w, x] => [firstByte w x]
  | _ => []

/-- The white space of HTML. -/
def isWhite (c : Char) : Bool := c = ' ' ∨ c = '\n' ∨ c = '\t' ∨ c = '\r' ∨ c.toNat = 12

/-- A character of padding is taken off the end. -/
def dropPad (s : List Char) : List Char := if s.getLast? = some '=' then s.dropLast else s

def decodeForgiving (s : List Char) : Option (List UInt8) :=
  let visible := s.filter fun c => !isWhite c
  let data := if visible.length % 4 = 0 then dropPad (dropPad visible) else visible
  if data.length % 4 = 1 then none else (data.mapM value).map bytesOf

/-- The value of a character of the alphabet or of the one for file names. -/
def looseValue (c : Char) : Option Nat :=
  if c = '-' then some 62 else if c = '_' then some 63 else value c

/-- What follows the first padding is not read, and no other character is refused. -/
def decodeLoose (s : List Char) : List UInt8 :=
  bytesOf ((s.takeWhile fun c => c ≠ '=').filterMap looseValue)

/-- A character of the alphabet, in the one for file names. -/
def urlSymbol (c : Char) : Char := if c = '+' then '-' else if c = '/' then '_' else c

/-- The value of a character of the alphabet for file names. -/
def urlValue (c : Char) : Option Nat :=
  if c = '-' then some 62
  else if c = '_' then some 63
  else if c = '+' ∨ c = '/' then none
  else value c

def encodeRawUrl (bytes : List UInt8) : List Char :=
  ((encode bytes).takeWhile fun c => c ≠ '=').map urlSymbol

/-- Line breaks are skipped, and the unused low bits of a last partial group are
not checked. -/
def decodeRawUrl (s : List Char) : Option (List UInt8) :=
  let data := s.filter fun c => c ≠ '\n' ∧ c ≠ '\r'
  if data.length % 4 = 1 then none else (data.mapM urlValue).map bytesOf

/-- A text without the padding at its end. -/
def unpadded {α : Type} [DecidableEq α] (pad : α) (s : List α) : List α :=
  (s.reverse.dropWhile (· = pad)).reverse

theorem value_symbol {n : Nat} (small : n < 64) : value (symbol n) = some n := by
  have all : ∀ n : Fin 64, value (symbol n) = some n.val := by decide
  exact all ⟨n, small⟩

theorem symbol_ne_pad {n : Nat} (small : n < 64) : symbol n ≠ '=' := by
  have all : ∀ n : Fin 64, symbol n ≠ '=' := by decide
  exact all ⟨n, small⟩

theorem symbol_visible {n : Nat} (small : n < 64) : symbol n ≠ '\n' ∧ symbol n ≠ '\r' := by
  have all : ∀ n : Fin 64, symbol n ≠ '\n' ∧ symbol n ≠ '\r' := by decide
  exact all ⟨n, small⟩

/-- The first sextet is most of the first byte, and so on. -/
private theorem byte_parts (a : UInt8) :
    a.toNat / 4 < 64 ∧ a.toNat % 4 * 16 < 64 ∧ a.toNat / 16 < 16 ∧ a.toNat / 64 < 4 := by
  have := a.toNat_lt
  omega

private theorem ofNat_of_eq {a : UInt8} {n : Nat} (same : n = a.toNat) : UInt8.ofNat n = a := by
  rw [same, UInt8.ofNat_toNat]

private theorem firstByte_eq (a : UInt8) {low : Nat} (small : low < 16) :
    firstByte (a.toNat / 4) (a.toNat % 4 * 16 + low) = a :=
  ofNat_of_eq (by omega)

private theorem secondByte_eq (b : UInt8) (high : Nat) {low : Nat} (small : low < 4) :
    secondByte (high * 16 + b.toNat / 16) (b.toNat % 16 * 4 + low) = b :=
  ofNat_of_eq (by have := byte_parts b; omega)

private theorem thirdByte_eq (c : UInt8) (high : Nat) :
    thirdByte (high * 4 + c.toNat / 64) (c.toNat % 64) = c :=
  ofNat_of_eq (by have := byte_parts c; omega)

/-- Decoding the groups that were encoded gives the bytes back. -/
theorem decodeGroups_encode (bytes : List UInt8) : decodeGroups (encode bytes) = some bytes := by
  induction bytes using encode.induct with
  | case1 => rfl
  | case2 a =>
    have pa := byte_parts a
    have first := firstByte_eq a (show 0 < 16 by decide)
    simp only [encode, decodeGroups, value_symbol pa.1, value_symbol pa.2.1]
    simpa using first
  | case3 a b =>
    have pa := byte_parts a
    have pb := byte_parts b
    have second : a.toNat % 4 * 16 + b.toNat / 16 < 64 := by omega
    have third : b.toNat % 16 * 4 < 64 := by omega
    simp only [encode, decodeGroups, value_symbol pa.1, value_symbol second, value_symbol third]
    simpa [symbol_ne_pad third, firstByte_eq a pb.2.2.1] using
      secondByte_eq b (a.toNat % 4) (show 0 < 4 by decide)
  | case4 a b c rest ih =>
    have pa := byte_parts a
    have pb := byte_parts b
    have pc := byte_parts c
    have second : a.toNat % 4 * 16 + b.toNat / 16 < 64 := by omega
    have third : b.toNat % 16 * 4 + c.toNat / 64 < 64 := by omega
    have fourth : c.toNat % 64 < 64 := by omega
    simp only [encode, decodeGroups, value_symbol pa.1, value_symbol second, value_symbol third,
      value_symbol fourth]
    simp [symbol_ne_pad third, symbol_ne_pad fourth, ih, firstByte_eq a pb.2.2.1,
      secondByte_eq b (a.toNat % 4) pc.2.2.2, thirdByte_eq c (b.toNat % 16)]

/-- An encoding contains no line break. -/
theorem encode_visible (bytes : List UInt8) : ∀ c ∈ encode bytes, c ≠ '\n' ∧ c ≠ '\r' := by
  induction bytes using encode.induct with
  | case1 => intro c member; cases member
  | case2 a =>
    have pa := byte_parts a
    simp only [encode, List.mem_cons, List.not_mem_nil, or_false]
    rintro c (rfl | rfl | rfl | rfl)
    · exact symbol_visible pa.1
    · exact symbol_visible pa.2.1
    · decide
    · decide
  | case3 a b =>
    have pa := byte_parts a
    have pb := byte_parts b
    simp only [encode, List.mem_cons, List.not_mem_nil, or_false]
    rintro c (rfl | rfl | rfl | rfl)
    · exact symbol_visible pa.1
    · exact symbol_visible (by omega)
    · exact symbol_visible (by omega)
    · decide
  | case4 a b c rest ih =>
    have pa := byte_parts a
    have pb := byte_parts b
    have pc := byte_parts c
    simp only [encode, List.mem_cons]
    rintro d (rfl | rfl | rfl | rfl | member)
    · exact symbol_visible pa.1
    · exact symbol_visible (by omega)
    · exact symbol_visible (by omega)
    · exact symbol_visible (by omega)
    · exact ih d member

/-- What was encoded decodes to itself. -/
theorem decode_encode (bytes : List UInt8) : decode (encode bytes) = some bytes := by
  have nothing_skipped : (encode bytes).filter (fun c => c ≠ '\n' ∧ c ≠ '\r') = encode bytes :=
    List.filter_eq_self.mpr fun c member => by simpa using encode_visible bytes c member
  rw [decode, nothing_skipped, decodeGroups_encode]

private theorem decodeFrom_symbol {n : Nat} (small : n < 64) (group : Group) (rest : List Char) :
    decodeFrom group (symbol n :: rest) =
      match group with
      | .start => decodeFrom (.one n) rest
      | .one w => decodeFrom (.two w n) rest
      | .two w x => decodeFrom (.three w x n) rest
      | .three w x y =>
        (decodeFrom .start rest).map fun bytes =>
          firstByte w x :: secondByte x y :: thirdByte y n :: bytes
      | .padded | .closed => none := by
  cases group <;> simp [decodeFrom, value_symbol small]

private theorem decodeFrom_pads (w x : Nat) :
    decodeFrom (.two w x) ['=', '='] = some [firstByte w x] := rfl

private theorem decodeFrom_pad (w x y : Nat) :
    decodeFrom (.three w x y) ['='] = some [firstByte w x, secondByte x y] := rfl

/-- What was encoded has nothing to skip. -/
theorem decodeSkipping_encode (bytes : List UInt8) : decodeSkipping (encode bytes) = some bytes := by
  unfold decodeSkipping
  induction bytes using encode.induct with
  | case1 => rfl
  | case2 a =>
    have pa := byte_parts a
    have first := firstByte_eq a (show 0 < 16 by decide)
    simp only [encode, decodeFrom_symbol pa.1, decodeFrom_symbol pa.2.1, decodeFrom_pads]
    simpa using first
  | case3 a b =>
    have pa := byte_parts a
    have pb := byte_parts b
    have second : a.toNat % 4 * 16 + b.toNat / 16 < 64 := by omega
    have third : b.toNat % 16 * 4 < 64 := by omega
    simp only [encode, decodeFrom_symbol pa.1, decodeFrom_symbol second, decodeFrom_symbol third,
      decodeFrom_pad, firstByte_eq a pb.2.2.1]
    simpa using secondByte_eq b (a.toNat % 4) (show 0 < 4 by decide)
  | case4 a b c rest ih =>
    have pa := byte_parts a
    have pb := byte_parts b
    have pc := byte_parts c
    have second : a.toNat % 4 * 16 + b.toNat / 16 < 64 := by omega
    have third : b.toNat % 16 * 4 + c.toNat / 64 < 64 := by omega
    have fourth : c.toNat % 64 < 64 := by omega
    simp only [encode, decodeFrom_symbol pa.1, decodeFrom_symbol second, decodeFrom_symbol third,
      decodeFrom_symbol fourth, ih, Option.map_some, firstByte_eq a pb.2.2.1,
      secondByte_eq b (a.toNat % 4) pc.2.2.2, thirdByte_eq c (b.toNat % 16)]

/-- An encoding is symbols and up to two characters of padding, four in a group;
the sextets of the symbols are the bytes. -/
theorem encode_shape (bytes : List UInt8) :
    ∃ sextets pads, encode bytes = sextets.map symbol ++ pads ∧ (∀ n ∈ sextets, n < 64) ∧
      bytesOf sextets = bytes ∧
      (pads = [] ∧ sextets.length % 4 = 0 ∨ pads = ['='] ∧ sextets.length % 4 = 3 ∨
        pads = ['=', '='] ∧ sextets.length % 4 = 2) := by
  induction bytes using encode.induct with
  | case1 => exact ⟨[], [], rfl, by simp, rfl, .inl ⟨rfl, rfl⟩⟩
  | case2 a =>
    have pa := byte_parts a
    refine ⟨[a.toNat / 4, a.toNat % 4 * 16], ['=', '='], rfl, ?_, ?_,
      .inr (.inr ⟨rfl, rfl⟩)⟩
    · simpa using ⟨pa.1, pa.2.1⟩
    · simpa [bytesOf] using firstByte_eq a (show 0 < 16 by decide)
  | case3 a b =>
    have pa := byte_parts a
    have pb := byte_parts b
    refine ⟨[a.toNat / 4, a.toNat % 4 * 16 + b.toNat / 16, b.toNat % 16 * 4], ['='], rfl, ?_, ?_,
      .inr (.inl ⟨rfl, rfl⟩)⟩
    · simp only [List.mem_cons, List.not_mem_nil, or_false]
      rintro n (rfl | rfl | rfl) <;> omega
    · have second := secondByte_eq b (a.toNat % 4) (show 0 < 4 by decide)
      simp only [Nat.add_zero] at second
      simp only [bytesOf, firstByte_eq a pb.2.2.1, second]
  | case4 a b c rest ih =>
    obtain ⟨sextets, pads, written, small, read, padded⟩ := ih
    have pa := byte_parts a
    have pb := byte_parts b
    have pc := byte_parts c
    refine ⟨a.toNat / 4 :: (a.toNat % 4 * 16 + b.toNat / 16) ::
      (b.toNat % 16 * 4 + c.toNat / 64) :: c.toNat % 64 :: sextets, pads, ?_, ?_, ?_, ?_⟩
    · simp [encode, written]
    · simp only [List.mem_cons]
      rintro n (rfl | rfl | rfl | rfl | member)
      · omega
      · omega
      · omega
      · omega
      · exact small n member
    · rw [bytesOf, firstByte_eq a pb.2.2.1, secondByte_eq b (a.toNat % 4) pc.2.2.2,
        thirdByte_eq c (b.toNat % 16), read]
    · have more : (sextets.length + 1 + 1 + 1 + 1) % 4 = sextets.length % 4 := by omega
      simpa only [List.length_cons, more] using padded

theorem symbol_ascii {n : Nat} (small : n < 64) : (symbol n).toNat < 128 := by
  have all : ∀ n : Fin 64, (symbol n).toNat < 128 := by decide
  exact all ⟨n, small⟩

/-- An encoding is ASCII. -/
theorem encode_ascii (bytes : List UInt8) : ∀ c ∈ encode bytes, c.toNat < 128 := by
  obtain ⟨sextets, pads, written, small, -, padded⟩ := encode_shape bytes
  rw [written]
  intro c member
  rcases List.mem_append.mp member with inside | inside
  · obtain ⟨n, among, rfl⟩ := List.mem_map.mp inside
    exact symbol_ascii (small n among)
  · have pad : c = '=' := by
      rcases padded with ⟨rfl, -⟩ | ⟨rfl, -⟩ | ⟨rfl, -⟩
      · cases inside
      · exact List.mem_singleton.mp inside
      · simpa using inside
    rw [pad]
    decide

private theorem mapM_value {sextets : List Nat} (small : ∀ n ∈ sextets, n < 64) :
    (sextets.map symbol).mapM value = some sextets := by
  induction sextets with
  | nil => rfl
  | cons n rest ih =>
    rw [List.forall_mem_cons] at small
    simp [List.mapM_cons, value_symbol small.1, ih small.2]

theorem isWhite_symbol {n : Nat} (small : n < 64) : isWhite (symbol n) = false := by
  have all : ∀ n : Fin 64, isWhite (symbol n) = false := by decide
  exact all ⟨n, small⟩

theorem looseValue_symbol {n : Nat} (small : n < 64) : looseValue (symbol n) = some n := by
  have all : ∀ n : Fin 64, looseValue (symbol n) = some n.val := by decide
  exact all ⟨n, small⟩

private theorem filterMap_looseValue {sextets : List Nat} (small : ∀ n ∈ sextets, n < 64) :
    (sextets.map symbol).filterMap looseValue = sextets := by
  induction sextets with
  | nil => rfl
  | cons n rest ih =>
    rw [List.forall_mem_cons] at small
    simp [looseValue_symbol small.1, ih small.2]

private theorem filter_visible {sextets : List Nat} (small : ∀ n ∈ sextets, n < 64)
    {pads : List Char} (padded : pads = [] ∨ pads = ['='] ∨ pads = ['=', '=']) :
    (sextets.map symbol ++ pads).filter (fun c => !isWhite c) = sextets.map symbol ++ pads := by
  apply List.filter_eq_self.mpr
  intro c member
  rcases List.mem_append.mp member with inside | inside
  · obtain ⟨n, among, rfl⟩ := List.mem_map.mp inside
    simp [isWhite_symbol (small n among)]
  · rcases padded with rfl | rfl | rfl
    · cases inside
    · rw [List.mem_singleton.mp inside]
      rfl
    · simp only [List.mem_cons, List.not_mem_nil, or_false, or_self] at inside
      rw [inside]
      rfl

private theorem dropPad_symbols {sextets : List Nat} (small : ∀ n ∈ sextets, n < 64) :
    dropPad (sextets.map symbol) = sextets.map symbol := by
  apply if_neg
  intro last
  obtain ⟨n, inside, same⟩ := List.mem_map.mp (List.mem_of_getLast? last)
  exact symbol_ne_pad (small n inside) same

private theorem dropPad_pad (s : List Char) : dropPad (s ++ ['=']) = s := by
  simp [dropPad]

/-- The decoder of web browsers reads back what was encoded. -/
theorem decodeForgiving_encode (bytes : List UInt8) : decodeForgiving (encode bytes) = some bytes := by
  obtain ⟨sextets, pads, written, small, read, padded⟩ := encode_shape bytes
  have pads_few : pads = [] ∨ pads = ['='] ∨ pads = ['=', '='] := by
    rcases padded with ⟨none, -⟩ | ⟨one, -⟩ | ⟨two, -⟩
    · exact .inl none
    · exact .inr (.inl one)
    · exact .inr (.inr two)
  have groups : (sextets.map symbol ++ pads).length % 4 = 0 := by
    rcases padded with ⟨rfl, count⟩ | ⟨rfl, count⟩ | ⟨rfl, count⟩
    · simpa using count
    · simp; omega
    · simp; omega
  have bare : dropPad (dropPad (sextets.map symbol ++ pads)) = sextets.map symbol := by
    rcases pads_few with rfl | rfl | rfl
    · simp only [List.append_nil, dropPad_symbols small]
    · rw [dropPad_pad, dropPad_symbols small]
    · have apart : sextets.map symbol ++ ['=', '='] = (sextets.map symbol ++ ['=']) ++ ['='] := by simp
      rw [apart, dropPad_pad, dropPad_pad]
  have short : (sextets.map symbol).length % 4 ≠ 1 := by
    rw [List.length_map]
    omega
  rw [decodeForgiving, written, filter_visible small pads_few]
  simp only [groups, if_true, bare, short, if_false, mapM_value small, Option.map_some, read]

/-- The decoder of Node.js reads back what was encoded. -/
theorem decodeLoose_encode (bytes : List UInt8) : decodeLoose (encode bytes) = bytes := by
  obtain ⟨sextets, pads, written, small, read, padded⟩ := encode_shape bytes
  have symbols : ∀ c ∈ sextets.map symbol, decide (c ≠ '=') = true := by
    intro c member
    obtain ⟨n, inside, rfl⟩ := List.mem_map.mp member
    exact decide_eq_true (symbol_ne_pad (small n inside))
  have plain : (sextets.map symbol ++ pads).takeWhile (fun c => c ≠ '=') = sextets.map symbol := by
    rw [List.takeWhile_append_of_pos symbols]
    rcases padded with ⟨rfl, -⟩ | ⟨rfl, -⟩ | ⟨rfl, -⟩ <;> simp
  rw [decodeLoose, written, plain, filterMap_looseValue small, read]

/-- Without padding, an encoding is its symbols. -/
theorem encodeRawUrl_shape (bytes : List UInt8) :
    ∃ sextets few, encodeRawUrl bytes = sextets.map (fun n => urlSymbol (symbol n)) ∧
      encode bytes = sextets.map symbol ++ List.replicate few '=' ∧ (∀ n ∈ sextets, n < 64) ∧
      bytesOf sextets = bytes ∧ sextets.length % 4 ≠ 1 ∧ few < 4 ∧
      (sextets.length + few) % 4 = 0 := by
  obtain ⟨sextets, pads, written, small, read, padded⟩ := encode_shape bytes
  have symbols : ∀ c ∈ sextets.map symbol, decide (c ≠ '=') = true := by
    intro c member
    obtain ⟨n, inside, rfl⟩ := List.mem_map.mp member
    exact decide_eq_true (symbol_ne_pad (small n inside))
  obtain ⟨few, rfl, short, whole⟩ : ∃ few, pads = List.replicate few '=' ∧ few < 4 ∧
      (sextets.length + few) % 4 = 0 := by
    rcases padded with ⟨rfl, count⟩ | ⟨rfl, count⟩ | ⟨rfl, count⟩
    · exact ⟨0, rfl, by omega, by omega⟩
    · exact ⟨1, rfl, by omega, by omega⟩
    · exact ⟨2, rfl, by omega, by omega⟩
  refine ⟨sextets, few, ?_, written, small, read, ?_, short, whole⟩
  · rw [encodeRawUrl, written, List.takeWhile_append_of_pos symbols]
    cases few <;> simp [List.replicate_succ]
  · rcases padded with ⟨-, count⟩ | ⟨-, count⟩ | ⟨-, count⟩ <;> omega

theorem urlValue_urlSymbol {n : Nat} (small : n < 64) : urlValue (urlSymbol (symbol n)) = some n := by
  have all : ∀ n : Fin 64, urlValue (urlSymbol (symbol n)) = some n.val := by decide
  exact all ⟨n, small⟩

theorem urlSymbol_visible {n : Nat} (small : n < 64) :
    urlSymbol (symbol n) ≠ '\n' ∧ urlSymbol (symbol n) ≠ '\r' := by
  have all : ∀ n : Fin 64, urlSymbol (symbol n) ≠ '\n' ∧ urlSymbol (symbol n) ≠ '\r' := by decide
  exact all ⟨n, small⟩

private theorem mapM_urlValue {sextets : List Nat} (small : ∀ n ∈ sextets, n < 64) :
    (sextets.map fun n => urlSymbol (symbol n)).mapM urlValue = some sextets := by
  induction sextets with
  | nil => rfl
  | cons n rest ih =>
    rw [List.forall_mem_cons] at small
    simp [List.mapM_cons, urlValue_urlSymbol small.1, ih small.2]

/-- What was encoded for a file name decodes to itself. -/
theorem decodeRawUrl_encodeRawUrl (bytes : List UInt8) :
    decodeRawUrl (encodeRawUrl bytes) = some bytes := by
  obtain ⟨sextets, few, written, -, small, read, short, -, -⟩ := encodeRawUrl_shape bytes
  have nothing_skipped : (encodeRawUrl bytes).filter (fun c => c ≠ '\n' ∧ c ≠ '\r') =
      encodeRawUrl bytes := by
    apply List.filter_eq_self.mpr
    rw [written]
    intro c member
    obtain ⟨n, inside, rfl⟩ := List.mem_map.mp member
    simpa using urlSymbol_visible (small n inside)
  rw [decodeRawUrl, nothing_skipped, written, List.length_map, if_neg short, mapM_urlValue small,
    Option.map_some, read]

theorem urlSymbol_ascii {n : Nat} (small : n < 64) :
    (urlSymbol (symbol n)).toNat < 128 ∧ urlSymbol (symbol n) ≠ '.' := by
  have all : ∀ n : Fin 64, (urlSymbol (symbol n)).toNat < 128 ∧ urlSymbol (symbol n) ≠ '.' := by
    decide
  exact all ⟨n, small⟩

/-- An encoding for a file name is ASCII and has no dot. -/
theorem encodeRawUrl_ascii (bytes : List UInt8) :
    ∀ c ∈ encodeRawUrl bytes, c.toNat < 128 ∧ c ≠ '.' := by
  obtain ⟨sextets, few, written, -, small, -⟩ := encodeRawUrl_shape bytes
  rw [written]
  intro c member
  obtain ⟨n, inside, rfl⟩ := List.mem_map.mp member
  exact urlSymbol_ascii (small n inside)

theorem encodeRawUrl_ne_nil {bytes : List UInt8} (there : bytes ≠ []) : encodeRawUrl bytes ≠ [] := by
  intro nothing
  have read := decodeRawUrl_encodeRawUrl bytes
  rw [nothing] at read
  exact there (Option.some.inj read).symm

theorem encode_injective {xs ys : List UInt8} (same : encode xs = encode ys) : xs = ys :=
  Option.some.inj (by rw [← decode_encode xs, ← decode_encode ys, same])

theorem unpadded_append {α : Type} [DecidableEq α] {pad : α} {s : List α} (absent : pad ∉ s)
    (few : Nat) : unpadded pad (s ++ List.replicate few pad) = s := by
  have none : s.reverse.dropWhile (· = pad) = s.reverse := by
    cases back : s.reverse with
    | nil => rfl
    | cons c front =>
      have member : c ∈ s := List.mem_reverse.mp (back ▸ List.mem_cons_self)
      have other : c ≠ pad := fun same => absent (same ▸ member)
      simp [other]
  have pads : (List.replicate few pad).dropWhile (· = pad) = [] := by
    induction few with
    | zero => rfl
    | succ few ih => simp [List.replicate_succ, ih]
  rw [unpadded, List.reverse_append, List.reverse_replicate, List.dropWhile_append, pads,
    List.isEmpty_nil, if_pos rfl, none, List.reverse_reverse]

/-- What is decoded in groups is symbols and padding. -/
theorem symbol_of_value {c : Char} {n : Nat} (read : value c = some n) : c = symbol n ∧ n < 64 := by
  have small : c.toNat < 128 := by
    rcases Nat.lt_or_ge c.toNat 128 with small | large
    · exact small
    · have above (d : Char) (low : d.toNat < 128) : ¬ c ≤ d :=
        fun le => Nat.lt_irrefl _ (Nat.lt_of_le_of_lt (Nat.le_trans large le) low)
      have other (d : Char) (low : d.toNat < 128) : c ≠ d := by
        rintro rfl
        omega
      simp [value, above 'Z' (by decide), above 'z' (by decide), above '9' (by decide),
        other '+' (by decide), other '/' (by decide)] at read
  have all : ∀ k : Fin 128, ∀ n ∈ value (Char.ofNat k), Char.ofNat k = symbol n ∧ n < 64 := by
    decide
  have here := all ⟨c.toNat, small⟩ n
  rw [Char.ofNat_toNat] at here
  exact here read

/-- What is decoded are groups of symbols, the last of which may be padded. -/
theorem decodeGroups_shape {s : List Char} {bytes : List UInt8} (read : decodeGroups s = some bytes) :
    ∃ sextets few, s = sextets.map symbol ++ List.replicate few '=' ∧ (∀ n ∈ sextets, n < 64) ∧
      bytesOf sextets = bytes := by
  induction s using decodeGroups.induct generalizing bytes with
  | case1 =>
    cases read
    exact ⟨[], 0, rfl, by simp, rfl⟩
  | case2 w x y z rest ih =>
    simp only [decodeGroups, Option.bind_eq_bind, Option.bind_eq_some_iff] at read
    obtain ⟨first, known, second, known', read⟩ := read
    obtain ⟨rfl, small⟩ := symbol_of_value known
    obtain ⟨rfl, small'⟩ := symbol_of_value known'
    split at read
    · next ends =>
      obtain ⟨rfl, rfl, rfl⟩ := ends
      cases read
      exact ⟨[first, second], 2, rfl, by simp [small, small'], rfl⟩
    · obtain ⟨third, known'', others⟩ := Option.bind_eq_some_iff.mp read
      obtain ⟨rfl, small''⟩ := symbol_of_value known''
      split at others
      · next ends =>
        obtain ⟨rfl, rfl⟩ := ends
        cases others
        exact ⟨[first, second, third], 1, rfl, by simp [small, small', small''], rfl⟩
      · obtain ⟨fourth, known''', behind⟩ := Option.bind_eq_some_iff.mp others
        obtain ⟨more, known_rest, whole⟩ := Option.bind_eq_some_iff.mp behind
        obtain ⟨rfl, small'''⟩ := symbol_of_value known'''
        obtain ⟨sextets, few, rfl, all_small, rfl⟩ := ih known_rest
        cases whole
        refine ⟨first :: second :: third :: fourth :: sextets, few, rfl, ?_, rfl⟩
        simpa [small, small', small'', small'''] using all_small
  | case3 s nonempty short =>
    rw [decodeGroups.eq_3 s nonempty short] at read
    cases read

/-- Only the empty list has the empty encoding. -/
theorem encode_eq_nil_iff (bytes : List UInt8) : encode bytes = [] ↔ bytes = [] :=
  ⟨fun empty => encode_injective (empty.trans rfl), fun empty => by rw [empty]; rfl⟩

end Hwfa.Base64
