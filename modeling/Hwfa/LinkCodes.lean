import Hwfa.AuthToken
import Hwfa.JsonRoundTrip

/-!
The code by which a new device joins an account (`packages/client/src/client.ts`).

The primary packs a token and the addresses of the services into JSON, that into UTF-8
and that into base64 for file names; the new device undoes one after the other, with a
decoder of UTF-8 of its own.
-/

namespace Hwfa.LinkCodes

open Hwfa.ClientHashing (Host bytesToBase64 characters isLeading_iff isTrailing_iff utf8Encode)
open Hwfa.AuthToken (padded replaceAll)
open Hwfa.Json (Text Value isLeading isTrailing one stringify unit utf16)

/-- `String.fromCharCode` of one number. -/
def fromCharCode (x : Int) : UInt16 := UInt16.ofNat (x % 65536).toNat

/-- `bytes[i++]! & 0x3f`; past the end nothing is there, which counts as 0. -/
def tail (rest : List UInt8) (i : Nat) : Nat := (rest.getD i 0).toNat &&& 0x3f

/-- The two code units of a number above the first plane.  Only the operators on what
is left after the subtraction may see a number below zero. -/
def surrogates (code : Nat) : Text :=
  let cp : Int := code - 0x10000
  [fromCharCode (0xd800 + JsNumbers.shiftRight cp 10), fromCharCode (0xdc00 + JsNumbers.and cp 0x3ff)]

/-- `utf8Decode`.  A number of up to four bytes stays far below two to the power 31, so
the operators are those of natural numbers. -/
def utf8Decode : List UInt8 → Text
  | [] => []
  | b :: rest =>
    let b0 := b.toNat
    if b0 < 0x80 then fromCharCode b0 :: utf8Decode rest
    else if b0 < 0xe0 then
      let unit := fromCharCode ((b0 &&& 0x1f) <<< 6 ||| tail rest 0 : Nat)
      match rest with
      | _ :: rest => unit :: utf8Decode rest
      | _ => [unit]
    else if b0 < 0xf0 then
      let unit := fromCharCode ((b0 &&& 0x0f) <<< 12 ||| tail rest 0 <<< 6 ||| tail rest 1 : Nat)
      match rest with
      | _ :: _ :: rest => unit :: utf8Decode rest
      | _ => [unit]
    else
      let units := surrogates
        ((b0 &&& 0x07) <<< 18 ||| tail rest 0 <<< 12 ||| tail rest 1 <<< 6 ||| tail rest 2)
      match rest with
      | _ :: _ :: _ :: rest => units ++ utf8Decode rest
      | _ => units

/-- `base64UrlEncode` -/
def base64UrlEncode (str : Text) : Text :=
  Base64.unpadded (unit '=') (replaceAll (unit '/') (unit '_') (replaceAll (unit '+') (unit '-')
    (bytesToBase64 (utf8Encode str))))

/-- `base64UrlDecode`.  A text that `atob` refuses is an exception. -/
def base64UrlDecode (host : Host) (code : Text) : Option Text :=
  let b64 := padded (replaceAll (unit '_') (unit '/') (replaceAll (unit '-') (unit '+') code))
  (ClientHashing.base64ToBytes host b64).map utf8Decode

/-- What `createLinkCode` packs. -/
def payload (token discoveryUrl relayUrl : Text) : Value := .object [
  (utf16 "v", .number (.finite one)), (utf16 "t", .string token), (utf16 "d", .string discoveryUrl),
  (utf16 "r", .string relayUrl)]

/-- `createLinkCode`, with the token that Discovery minted. -/
def createLinkCode (token discoveryUrl relayUrl : Text) : Text :=
  base64UrlEncode ((stringify (payload token discoveryUrl relayUrl)).getD [])

/-- What `linkWithCode` reads of a code, `none` where it throws. -/
def readLinkCode (host : Host) (code : Text) : Option Value :=
  (base64UrlDecode host code).bind Json.parse

/-- The token `linkWithCode` links with; `null` has no properties to ask for. -/
def linkToken (host : Host) (code : Text) : Option Value := do
  let payload ← readLinkCode host code
  let t := payload.get "t"
  if payload.nullish ∨ ¬t.truthy then none else some t

/-! ### UTF-8 -/

theorem fromCharCode_natCast (n : Nat) : fromCharCode n = UInt16.ofNat n := by
  have number : ((n : Int) % 65536).toNat = n % 65536 := by omega
  apply UInt16.toNat_inj.mp
  rw [fromCharCode, number, UInt16.toNat_ofNat', UInt16.toNat_ofNat', Nat.mod_mod]

/-- The six bits behind the mark of a byte that goes on. -/
theorem tail_mark {rest : List UInt8} {i n : Nat} (there : rest[i]? = some (UInt8.ofNat (n % 64 + 0x80))) :
    tail rest i = n % 64 := by
  have masked : (n % 64 + 0x80) &&& 0x3f = (n % 64 + 0x80) % 64 := Nat.and_two_pow_sub_one_eq_mod _ 6
  have number : (UInt8.ofNat (n % 64 + 0x80)).toNat = n % 64 + 0x80 := by
    rw [UInt8.toNat_ofNat', Nat.mod_eq_of_lt (by omega)]
  rw [tail, List.getD_eq_getElem?_getD, there, Option.getD_some, number, masked]
  omega

/-- Bits that are put behind others. -/
theorem shift_or {x y k : Nat} (small : y < Nat.pow 2 k) : x <<< k ||| y = x * Nat.pow 2 k + y := by
  rw [← Nat.shiftLeft_add_eq_or_of_lt small, Nat.shiftLeft_eq]
  rfl

theorem three_parts {x y z : Nat} (second : y < 64) (third : z < 64) :
    x <<< 12 ||| y <<< 6 ||| z = (x * 64 + y) * 64 + z := by
  have inner : x <<< 12 ||| y <<< 6 = (x <<< 6 ||| y) <<< 6 := by
    rw [Nat.shiftLeft_or_distrib, ← Nat.shiftLeft_add]
  rw [inner, shift_or third, shift_or second]

theorem four_parts {w x y z : Nat} (second : x < 64) (third : y < 64) (fourth : z < 64) :
    w <<< 18 ||| x <<< 12 ||| y <<< 6 ||| z = ((w * 64 + x) * 64 + y) * 64 + z := by
  have inner : w <<< 18 ||| x <<< 12 ||| y <<< 6 = (w <<< 12 ||| x <<< 6 ||| y) <<< 6 := by
    rw [Nat.shiftLeft_or_distrib, Nat.shiftLeft_or_distrib, ← Nat.shiftLeft_add,
      ← Nat.shiftLeft_add]
  rw [inner, shift_or fourth, three_parts second third]

theorem surrogates_eq {n : Nat} (low : 0x10000 ≤ n) (high : n < 0x110000) :
    surrogates n = [UInt16.ofNat (0xD800 + (n - 0x10000) / 0x400),
      UInt16.ofNat (0xDC00 + (n - 0x10000) % 0x400)] := by
  obtain ⟨m, rfl⟩ : ∃ m, n = m + 0x10000 := ⟨n - 0x10000, by omega⟩
  have number : ((m + 0x10000 : Nat) : Int) - 0x10000 = m := by omega
  have first : JsNumbers.shiftRight m 10 = (m / 0x400 : Nat) := by
    rw [JsNumbers.shiftRight_natCast (by omega) (by decide)]
    exact congrArg Nat.cast (Nat.shiftRight_eq_div_pow m 10)
  have second : JsNumbers.and m 0x3ff = (m % 0x400 : Nat) := by
    rw [Int.natCast_emod]
    exact JsNumbers.and_mask m (k := 10) (m := 0x3ff) rfl (by decide)
  rw [surrogates, number, first, second, Nat.add_sub_cancel]
  exact congrArg₂ (fun x y => [x, y]) (fromCharCode_natCast (0xD800 + m / 0x400))
    (fromCharCode_natCast (0xDC00 + m % 0x400))

theorem utf8Decode_two {n : Nat} (small : n ≤ 0x7ff) (rest : List UInt8) :
    utf8Decode (UInt8.ofNat (n / 64 % 32 + 0xc0) :: UInt8.ofNat (n % 64 + 0x80) :: rest) =
      UInt16.ofNat n :: utf8Decode rest := by
  have byte : (UInt8.ofNat (n / 64 % 32 + 0xc0)).toNat = n / 64 + 0xc0 := by
    rw [UInt8.toNat_ofNat', Nat.mod_eq_of_lt (by omega)]
    omega
  have first : (n / 64 + 0xc0) &&& 0x1f = n / 64 := by
    rw [Nat.and_two_pow_sub_one_eq_mod _ 5]
    omega
  have second : tail (UInt8.ofNat (n % 64 + 0x80) :: rest) 0 = n % 64 := tail_mark rfl
  have number : n / 64 * Nat.pow 2 6 + n % 64 = n := Nat.div_add_mod' _ _
  rw [utf8Decode, byte, if_neg (by omega), if_pos (by omega), first, second,
    shift_or (Nat.mod_lt _ (by decide)), number, fromCharCode_natCast]

theorem utf8Decode_three {n : Nat} (small : n ≤ 0xffff) (rest : List UInt8) :
    utf8Decode (UInt8.ofNat (n / 4096 % 16 + 0xe0) :: UInt8.ofNat (n / 64 % 64 + 0x80) ::
      UInt8.ofNat (n % 64 + 0x80) :: rest) = UInt16.ofNat n :: utf8Decode rest := by
  have byte : (UInt8.ofNat (n / 4096 % 16 + 0xe0)).toNat = n / 4096 + 0xe0 := by
    rw [UInt8.toNat_ofNat', Nat.mod_eq_of_lt (by omega)]
    omega
  have first : (n / 4096 + 0xe0) &&& 0x0f = n / 4096 := by
    rw [Nat.and_two_pow_sub_one_eq_mod _ 4]
    omega
  have second : tail (UInt8.ofNat (n / 64 % 64 + 0x80) :: UInt8.ofNat (n % 64 + 0x80) :: rest) 0 =
      n / 64 % 64 := tail_mark rfl
  have third : tail (UInt8.ofNat (n / 64 % 64 + 0x80) :: UInt8.ofNat (n % 64 + 0x80) :: rest) 1 =
      n % 64 := tail_mark rfl
  have number : (n / 4096 * 64 + n / 64 % 64) * 64 + n % 64 = n := by omega
  rw [utf8Decode, byte, if_neg (by omega), if_neg (by omega), if_pos (by omega), first, second, third,
    three_parts (Nat.mod_lt _ (by decide)) (Nat.mod_lt _ (by decide)), number, fromCharCode_natCast]

theorem utf8Decode_four {n : Nat} (low : 0x10000 ≤ n) (high : n < 0x110000) (rest : List UInt8) :
    utf8Decode (UInt8.ofNat (n / 262144 % 8 + 0xf0) :: UInt8.ofNat (n / 4096 % 64 + 0x80) ::
      UInt8.ofNat (n / 64 % 64 + 0x80) :: UInt8.ofNat (n % 64 + 0x80) :: rest) =
      surrogates n ++ utf8Decode rest := by
  have byte : (UInt8.ofNat (n / 262144 % 8 + 0xf0)).toNat = n / 262144 + 0xf0 := by
    rw [UInt8.toNat_ofNat', Nat.mod_eq_of_lt (by omega)]
    omega
  have first : (n / 262144 + 0xf0) &&& 0x07 = n / 262144 := by
    rw [Nat.and_two_pow_sub_one_eq_mod _ 3]
    omega
  have second : tail (UInt8.ofNat (n / 4096 % 64 + 0x80) :: UInt8.ofNat (n / 64 % 64 + 0x80) ::
      UInt8.ofNat (n % 64 + 0x80) :: rest) 0 = n / 4096 % 64 := tail_mark rfl
  have third : tail (UInt8.ofNat (n / 4096 % 64 + 0x80) :: UInt8.ofNat (n / 64 % 64 + 0x80) ::
      UInt8.ofNat (n % 64 + 0x80) :: rest) 1 = n / 64 % 64 := tail_mark rfl
  have fourth : tail (UInt8.ofNat (n / 4096 % 64 + 0x80) :: UInt8.ofNat (n / 64 % 64 + 0x80) ::
      UInt8.ofNat (n % 64 + 0x80) :: rest) 2 = n % 64 := tail_mark rfl
  have number : ((n / 262144 * 64 + n / 4096 % 64) * 64 + n / 64 % 64) * 64 + n % 64 = n := by omega
  rw [utf8Decode, byte, if_neg (by omega), if_neg (by omega), if_neg (by omega), first, second, third,
    fourth, four_parts (Nat.mod_lt _ (by decide)) (Nat.mod_lt _ (by decide))
      (Nat.mod_lt _ (by decide)), number]

/-- The bytes of a character are its code units, whatever follows. -/
theorem utf8Decode_char (c : Char) (rest : List UInt8) :
    utf8Decode (String.utf8EncodeChar c ++ rest) = utf16 (String.ofList [c]) ++ utf8Decode rest := by
  have valid : c.toNat < 0xd800 ∨ 0xdfff < c.toNat ∧ c.toNat < 0x110000 := c.valid
  rw [ClientHashing.utf8EncodeChar_eq]
  split
  · next small =>
    have byte : (UInt8.ofNat c.toNat).toNat = c.toNat := by
      rw [UInt8.toNat_ofNat', Nat.mod_eq_of_lt (by omega)]
    rw [ClientHashing.utf16_single (by omega), List.singleton_append, utf8Decode, byte,
      if_pos (by omega), fromCharCode_natCast]
    rfl
  split
  · next small =>
    rw [ClientHashing.utf16_single (by omega)]
    exact utf8Decode_two small rest
  split
  · next small =>
    rw [ClientHashing.utf16_single (by omega)]
    exact utf8Decode_three small rest
  · next large =>
    rw [ClientHashing.utf16_pair (by omega), ← surrogates_eq (by omega) (by omega)]
    exact utf8Decode_four (by omega) (by omega) rest

/-- A well-formed text comes back from its UTF-8. -/
theorem utf8Decode_utf8Encode {x : Text} {cs : List Char} (wellFormed : characters x = some cs) :
    utf8Decode (utf8Encode x) = x := by
  have units (cs : List Char) :
      utf8Decode (cs.flatMap String.utf8EncodeChar) = utf16 (String.ofList cs) := by
    induction cs with
    | nil => rfl
    | cons c rest ih => rw [List.flatMap_cons, utf8Decode_char, ih, ClientHashing.utf16_cons c rest]
  rw [ClientHashing.utf8Encode_of_characters wellFormed, units,
    ClientHashing.utf16_characters wellFormed]

/-! ### Base64 for file names -/

/-- A character of base64 for file names; padding is none. -/
def isBase64Url (u : UInt16) : Bool :=
  unit 'A' ≤ u && u ≤ unit 'Z' || unit 'a' ≤ u && u ≤ unit 'z' || Json.isDigit u || u = unit '-' ||
    u = unit '_'

theorem urlSymbol_replaced {n : Nat} (small : n < 64) :
    replaceAll (unit '/') (unit '_') (replaceAll (unit '+') (unit '-') [unit (Base64.symbol n)]) =
      [unit (Base64.urlSymbol (Base64.symbol n))] := by
  have all : ∀ n : Fin 64, replaceAll (unit '/') (unit '_') (replaceAll (unit '+') (unit '-')
      [unit (Base64.symbol n)]) = [unit (Base64.urlSymbol (Base64.symbol n))] := by decide
  exact all ⟨n, small⟩

theorem isBase64Url_urlSymbol {n : Nat} (small : n < 64) :
    isBase64Url (unit (Base64.urlSymbol (Base64.symbol n))) := by
  have all : ∀ n : Fin 64, isBase64Url (unit (Base64.urlSymbol (Base64.symbol n))) := by decide
  exact all ⟨n, small⟩

theorem symbols_replaced {sextets : List Nat} (small : ∀ n ∈ sextets, n < 64) (few : Nat) :
    replaceAll (unit '/') (unit '_') (replaceAll (unit '+') (unit '-')
      ((sextets.map Base64.symbol ++ List.replicate few '=').map unit)) =
      sextets.map (fun n => unit (Base64.urlSymbol (Base64.symbol n))) ++
        List.replicate few (unit '=') := by
  induction sextets with
  | nil => simp [replaceAll, unit]
  | cons n rest ih =>
    rw [List.forall_mem_cons] at small
    exact congrArg₂ (· ++ ·) (urlSymbol_replaced small.1) (ih small.2)

/-- The client writes what the service writes. -/
theorem base64UrlEncode_eq (str : Text) :
    base64UrlEncode str = GoJson.latin1 (AuthToken.b64 (utf8Encode str)) := by
  obtain ⟨sextets, few, written, encoded, small, -⟩ := Base64.encodeRawUrl_shape (utf8Encode str)
  have no_padding : unit '=' ∉ sextets.map fun n => unit (Base64.urlSymbol (Base64.symbol n)) := by
    intro member
    obtain ⟨n, inside, same⟩ := List.mem_map.mp member
    have letter := isBase64Url_urlSymbol (small n inside)
    rw [same] at letter
    exact absurd letter (by decide)
  have ascii := Base64.encodeRawUrl_ascii (utf8Encode str)
  rw [AuthToken.b64, GoJson.latin1_ascii fun c member => (ascii c member).1, written, List.map_map,
    base64UrlEncode, ClientHashing.bytesToBase64_eq, encoded, symbols_replaced small,
    Base64.unpadded_append no_padding]
  rfl

theorem base64UrlEncode_letters (str : Text) : ∀ u ∈ base64UrlEncode str, isBase64Url u := by
  obtain ⟨sextets, few, written, -, small, -⟩ := Base64.encodeRawUrl_shape (utf8Encode str)
  have ascii := Base64.encodeRawUrl_ascii (utf8Encode str)
  rw [base64UrlEncode_eq, AuthToken.b64, GoJson.latin1_ascii fun c member => (ascii c member).1,
    written, List.map_map]
  intro u member
  obtain ⟨n, inside, rfl⟩ := List.mem_map.mp member
  exact isBase64Url_urlSymbol (small n inside)

/-- Whichever decoder the host has, a well-formed text comes back. -/
theorem base64UrlDecode_encode (host : Host) {str : Text} {cs : List Char}
    (wellFormed : characters str = some cs) :
    base64UrlDecode host (base64UrlEncode str) = some str := by
  have read := AuthToken.decodeBase64Url_b64 host (utf8Encode str)
  rw [← base64UrlEncode_eq] at read
  obtain ⟨bytes, decoded, same⟩ := Option.map_eq_some_iff.mp read
  have exact : bytes = utf8Encode str :=
    List.map_injective_iff.mpr (fun _ _ => UInt8.toUInt16_inj.mp) same
  rw [base64UrlDecode, decoded, exact, Option.map_some, utf8Decode_utf8Encode wellFormed]

/-! ### What is written is well formed -/

/-- No half of a pair stands alone. -/
def WellFormed (t : Text) : Prop := ∃ cs, characters t = some cs

theorem WellFormed.append {t t' : Text} (first : WellFormed t) (second : WellFormed t') :
    WellFormed (t ++ t') := by
  obtain ⟨cs, read⟩ := first
  obtain ⟨cs', read'⟩ := second
  have units : t ++ t' = utf16 (String.ofList (cs ++ cs')) := by
    rw [← ClientHashing.utf16_characters read, ← ClientHashing.utf16_characters read']
    simp [utf16]
  rw [units]
  exact ⟨_, ClientHashing.characters_utf16 _⟩

/-- Characters of the first plane, one unit each. -/
theorem wellFormed_of_units {t : Text}
    (whole : ∀ u ∈ t, isLeading u = false ∧ isTrailing u = false) : WellFormed t := by
  induction t with
  | nil => exact ⟨[], rfl⟩
  | cons u rest ih =>
    rw [List.forall_mem_cons] at whole
    obtain ⟨⟨leads, trails⟩, others⟩ := whole
    have one : WellFormed [u] := by
      refine ⟨[Char.ofNat u.toNat], ?_⟩
      rw [ClientHashing.characters_cons (ne_true_of_eq_false leads) (ne_true_of_eq_false trails)]
      rfl
    exact one.append (ih others)

theorem wellFormed_pair {u v : UInt16} (leads : isLeading u = true) (trails : isTrailing v = true) :
    WellFormed [u, v] := by
  refine ⟨[Char.ofNat (ClientHashing.pairCode u.toNat v.toNat)], ?_⟩
  rw [characters, if_pos leads, if_pos trails]
  rfl

theorem hexLetter_whole {d : UInt16} (small : d.toNat < 16) :
    isLeading (JsonRoundTrip.hexLetter d) = false ∧ isTrailing (JsonRoundTrip.hexLetter d) = false := by
  have all : ∀ n : Fin 16, isLeading (JsonRoundTrip.hexLetter (UInt16.ofNat n)) = false ∧
      isTrailing (JsonRoundTrip.hexLetter (UInt16.ofNat n)) = false := by decide
  have here := all ⟨d.toNat, small⟩
  rw [UInt16.ofNat_toNat] at here
  exact here

theorem wellFormed_utf16 (s : String) : WellFormed (utf16 s) := by
  have read := ClientHashing.characters_utf16 s.toList
  rw [String.ofList_toList] at read
  exact ⟨_, read⟩

/-- Half a pair is escaped. -/
theorem wellFormed_escapeUnit (u : UInt16) : WellFormed (Json.escapeUnit u) := by
  unfold Json.escapeUnit
  split
  · exact wellFormed_utf16 _
  split
  · exact wellFormed_utf16 _
  split
  · exact wellFormed_utf16 _
  split
  · exact wellFormed_utf16 _
  split
  · exact wellFormed_utf16 _
  split
  · next same => rcases same with rfl | rfl <;> exact ⟨_, rfl⟩
  split
  · apply (wellFormed_utf16 _).append
    apply wellFormed_of_units
    intro v member
    obtain ⟨d, inside, rfl⟩ := List.mem_map.mp member
    apply hexLetter_whole
    have range := u.toNat_lt
    have first : (u / 0x1000).toNat = u.toNat / 0x1000 := rfl
    have second : (u / 0x100 % 0x10).toNat = u.toNat / 0x100 % 0x10 := rfl
    have third : (u / 0x10 % 0x10).toNat = u.toNat / 0x10 % 0x10 := rfl
    have fourth : (u % 0x10).toNat = u.toNat % 0x10 := rfl
    simp only [List.mem_cons, List.not_mem_nil, or_false] at inside
    rcases inside with rfl | rfl | rfl | rfl <;> omega
  · next others plain =>
    simp only [not_or, Bool.not_eq_true] at plain
    exact wellFormed_of_units (List.forall_mem_singleton.mpr plain.2)

theorem wellFormed_escape (t : Text) : WellFormed (Json.escape t) := by
  induction t using Json.escape.induct with
  | case1 => exact ⟨[], rfl⟩
  | case2 u => exact wellFormed_escapeUnit u
  | case3 u v rest pair ih =>
    rw [Json.escape, if_pos pair]
    exact (wellFormed_pair pair.1 pair.2).append ih
  | case4 u v rest alone ih =>
    rw [Json.escape, if_neg alone]
    exact (wellFormed_escapeUnit u).append ih

theorem wellFormed_quote (t : Text) : WellFormed (Json.quote t) := by
  have mark : WellFormed [unit '"'] := ⟨['"'], rfl⟩
  exact (mark.append (wellFormed_escape t)).append mark

theorem wellFormed_join {separator : Text} {parts : List Text} (between : WellFormed separator)
    (each : ∀ t ∈ parts, WellFormed t) : WellFormed (Json.join separator parts) := by
  induction parts with
  | nil => exact ⟨[], rfl⟩
  | cons t rest ih =>
    rw [List.forall_mem_cons] at each
    cases rest with
    | nil =>
      rw [Json.join, List.intersperse_singleton, List.flatten_singleton]
      exact each.1
    | cons t' rest =>
      rw [JsonRoundTrip.join_cons]
      exact each.1.append (between.append (ih each.2))

theorem numeral_whole {u : UInt16} (numeral : Json.inNumeral u) :
    isLeading u = false ∧ isTrailing u = false := by
  have small : u.toNat < 0xd800 := by
    rw [Json.inNumeral, Bool.or_eq_true] at numeral
    rcases numeral with digit | mark
    · rw [Json.isDigit, Bool.and_eq_true, decide_eq_true_eq, decide_eq_true_eq,
        UInt16.le_iff_toNat_le, UInt16.le_iff_toNat_le] at digit
      have high : u.toNat ≤ 57 := digit.2
      omega
    · rw [decide_eq_true_eq] at mark
      simp only [List.mem_cons, List.not_mem_nil, or_false] at mark
      rcases mark with rfl | rfl | rfl | rfl | rfl <;> decide
  rw [← Bool.not_eq_true, ← Bool.not_eq_true, isLeading_iff, isTrailing_iff]
  omega

theorem wellFormed_number (quanta : Int) : WellFormed (Json.Number.text (.finite quanta)) := by
  obtain ⟨u, more, written, first, others⟩ := JsonRoundTrip.text_shape quanta
  have numeral : Json.inNumeral u := by
    rcases first with rfl | digit
    · rfl
    · exact JsonRoundTrip.inNumeral_of_isDigit digit
  have all : ∀ v ∈ u :: more, Json.inNumeral v := List.forall_mem_cons.mpr ⟨numeral, others⟩
  rw [written]
  exact wellFormed_of_units fun v member => numeral_whole (all v member)

theorem wellFormed_primitive (p : Json.Primitive) :
    ∀ t, stringify (.primitive p) = some t → WellFormed t := by
  intro t written
  cases p with
  | undefined => cases written
  | null =>
    cases written
    exact wellFormed_utf16 _
  | boolean b =>
    cases written
    exact wellFormed_utf16 _
  | number n =>
    cases n with
    | infinite negative =>
      cases written
      exact wellFormed_utf16 _
    | finite quanta =>
      cases written
      exact wellFormed_number quanta
  | string text =>
    cases written
    exact wellFormed_quote text

/-- Whatever it says, what `JSON.stringify` writes is well formed. -/
theorem wellFormed_stringify (v : Value) : ∀ t, stringify v = some t → WellFormed t := by
  induction v using Value.induction with
  | primitive p => exact wellFormed_primitive p
  | array elements ih =>
    intro t written
    have opened : WellFormed [unit '['] := ⟨['['], rfl⟩
    have closed : WellFormed [unit ']'] := ⟨[']'], rfl⟩
    have comma : WellFormed [unit ','] := ⟨[','], rfl⟩
    rw [stringify, JsonRoundTrip.stringifyElements_eq, Option.some.injEq] at written
    rw [← written]
    refine (opened.append (wellFormed_join comma ?_)).append closed
    intro part member
    obtain ⟨v, inside, rfl⟩ := List.mem_map.mp member
    cases element : stringify v with
    | none => exact wellFormed_utf16 _
    | some text => exact ih v inside text element
  | object members ih =>
    intro t written
    have opened : WellFormed [0x7B] := ⟨['\x7b'], rfl⟩
    have closed : WellFormed [0x7D] := ⟨['\x7d'], rfl⟩
    have comma : WellFormed [unit ','] := ⟨[','], rfl⟩
    have colon : WellFormed [unit ':'] := ⟨[':'], rfl⟩
    rw [stringify, JsonRoundTrip.stringifyMembers_eq,
      JsonRoundTrip.ownKeysFirst_map fun v => (stringify v).getD [], List.map_map,
      Option.some.injEq] at written
    rw [← written]
    refine (opened.append (wellFormed_join comma ?_)).append closed
    intro part member
    obtain ⟨m, inside, rfl⟩ := List.mem_map.mp member
    apply (wellFormed_quote m.1).append
    apply colon.append
    rw [Json.mem_indexFirst, List.mem_filter] at inside
    change WellFormed ((stringify m.2).getD [])
    cases value : stringify m.2 with
    | none => exact ⟨[], rfl⟩
    | some text => exact ih m inside.1 text value

/-! ### The code -/

section

variable (token discoveryUrl relayUrl : Text)

theorem payload_held : JsonRoundTrip.Held (payload token discoveryUrl relayUrl) := by
  have text (t : Text) : JsonRoundTrip.Held (.string t) := .primitive (by simp)
  have version : JsonRoundTrip.Held (.number (.finite one)) := by
    refine .primitive fun quanta same => ?_
    cases same
    have read := JsonRoundTrip.readNumber_natCast (m := 1) (by decide)
    rw [Nat.one_mul] at read
    exact read
  have names : [utf16 "v", utf16 "t", utf16 "d", utf16 "r"].Nodup := by decide
  refine .object names ?_
  simp only [List.forall_mem_cons]
  exact ⟨version, text token, text discoveryUrl, text relayUrl, List.forall_mem_nil _⟩

/-- The names of the payload are listed as they come. -/
theorem reread_payload :
    Json.reread (payload token discoveryUrl relayUrl) = payload token discoveryUrl relayUrl := by
  have names : ∀ m ∈ [(utf16 "v", Value.number (.finite one)), (utf16 "t", .string token),
      (utf16 "d", .string discoveryUrl), (utf16 "r", .string relayUrl)],
      Json.arrayIndex m.1 = none := by
    simp only [List.forall_mem_cons]
    exact ⟨by decide, by decide, by decide, by decide, List.forall_mem_nil _⟩
  exact congrArg Value.object (JsonRoundTrip.indexFirst_eq_self names)

/-- What was packed is read again, whatever the token and the addresses are. -/
theorem readLinkCode_createLinkCode (host : Host) :
    readLinkCode host (createLinkCode token discoveryUrl relayUrl) =
      some (payload token discoveryUrl relayUrl) := by
  obtain ⟨json, written⟩ : ∃ json, stringify (payload token discoveryUrl relayUrl) = some json :=
    ⟨_, rfl⟩
  obtain ⟨cs, wellFormed⟩ := wellFormed_stringify _ json written
  rw [readLinkCode, createLinkCode, written, Option.getD_some, base64UrlDecode_encode host wellFormed,
    Option.bind_some, JsonRoundTrip.parse_stringify (payload_held _ _ _) written, reread_payload]

/-- A token that says something is the one the new device links with. -/
theorem linkToken_createLinkCode (host : Host) (some_token : token ≠ []) :
    linkToken host (createLinkCode token discoveryUrl relayUrl) = some (.string token) := by
  have asked : (payload token discoveryUrl relayUrl).get "t" = .string token := rfl
  have truthy : (Value.string token).truthy = true := by
    cases token with
    | nil => exact absurd rfl some_token
    | cons => rfl
  have there : (payload token discoveryUrl relayUrl).nullish = false := rfl
  rw [linkToken, readLinkCode_createLinkCode]
  simp [asked, truthy, there]

end

/-- Link codes are of base64 for file names and carry the token and both addresses; the
decoder of UTF-8 under them gives back every well-formed text. -/
theorem link_codes_round_trip :
    (∀ (host : Host) (token discoveryUrl relayUrl : Text),
      (∀ u ∈ createLinkCode token discoveryUrl relayUrl, isBase64Url u) ∧
      ∃ read, readLinkCode host (createLinkCode token discoveryUrl relayUrl) = some read ∧
        read = payload token discoveryUrl relayUrl ∧ read.get "t" = .string token ∧
        read.get "d" = .string discoveryUrl ∧ read.get "r" = .string relayUrl) ∧
    ∀ (x : Text) (cs : List Char), characters x = some cs → utf8Decode (utf8Encode x) = x := by
  refine ⟨fun host token discoveryUrl relayUrl => ⟨base64UrlEncode_letters _, ?_⟩, ?_⟩
  · exact ⟨_, readLinkCode_createLinkCode token discoveryUrl relayUrl host, rfl, rfl, rfl, rfl⟩
  · exact fun x cs wellFormed => utf8Decode_utf8Encode wellFormed

theorem link_codes_round_trip_emoji :
    utf8Decode (utf8Encode (utf16 (String.ofList ['é', '€', '😀']))) =
      utf16 (String.ofList ['é', '€', '😀']) :=
  link_codes_round_trip.2 _ ['é', '€', '😀'] (ClientHashing.characters_utf16 _)

end Hwfa.LinkCodes
