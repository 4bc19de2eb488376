import Hwfa.Doubles
import Hwfa.Lexers

/-!
JSON as the `encoding/json` of Go writes and reads it, over bytes.

A string is escaped for HTML when it is written, and read byte by byte: bytes that
are not UTF-8, and surrogates that are not a pair, become the replacement character.
A number stays the literal that it is until a field asks for an integer.  The members
of an object keep their order and their repetitions, which the fields of a struct take
one after the other.
-/

namespace Hwfa.GoJson

open Hwfa.Lexers (Lexer Run)

abbrev Bytes := List UInt8

def byte (c : Char) : UInt8 := UInt8.ofNat c.toNat

/-- The bytes of ASCII characters. -/
def ascii (cs : List Char) : Bytes := cs.map byte

/-- The code units that have the values of bytes. -/
def latin1 (bytes : Bytes) : Json.Text := bytes.map UInt8.toUInt16

/-! ### Writing -/

def hexDigit (n : Nat) : UInt8 := UInt8.ofNat (if n < 10 then 48 + n else 87 + n)

/-- `appendString`, of one character, with `escapeHTML`. -/
def escape (c : Char) : Bytes :=
  if c = '"' ∨ c = '\\' then [byte '\\', byte c]
  else if c.toNat = 8 then ascii ['\\', 'b']
  else if c.toNat = 12 then ascii ['\\', 'f']
  else if c = '\n' then ascii ['\\', 'n']
  else if c = '\r' then ascii ['\\', 'r']
  else if c = '\t' then ascii ['\\', 't']
  else if c.toNat < 0x20 ∨ c = '<' ∨ c = '>' ∨ c = '&' then
    ascii ['\\', 'u', '0', '0'] ++ [hexDigit (c.toNat / 16), hexDigit (c.toNat % 16)]
  else if c.toNat = 0x2028 ∨ c.toNat = 0x2029 then
    ascii ['\\', 'u', '2', '0', '2'] ++ [hexDigit (c.toNat % 16)]
  else String.utf8EncodeChar c

def quote (s : String) : Bytes := byte '"' :: s.toList.flatMap escape ++ [byte '"']

/-- `strconv.AppendInt`, in base 10. -/
def appendInt (n : Int) : Bytes := ascii n.repr.toList

/-! ### Reading -/

inductive Scalar where
  | null
  | boolean (b : Bool)
  | number (literal : Bytes)
  | string (s : String)
  deriving DecidableEq

inductive Token where
  | openArray
  | closeArray
  | openObject
  | closeObject
  | colon
  | comma
  | scalar (v : Scalar)
  deriving DecidableEq

def hexValue (b : UInt8) : Option Nat := Json.hexDigit b.toUInt16

/-- `getu4`: the code unit of an escape that stands at the beginning. -/
def getu4 : Bytes → Option Nat
  | a :: u :: w :: x :: y :: z :: _ =>
    if a = byte '\\' ∧ u = byte 'u' then do
      return (((← hexValue w) * 16 + (← hexValue x)) * 16 + (← hexValue y)) * 16 + (← hexValue z)
    else none
  | _ => none

/-- `utf16.DecodeRune`: the character of a pair of surrogates. -/
def decodePair (rr rr1 : Nat) : Option Char :=
  if 0xD800 ≤ rr ∧ rr < 0xDC00 ∧ 0xDC00 ≤ rr1 ∧ rr1 < 0xE000 then
    some (Char.ofNat (0x10000 + (rr - 0xD800) * 0x400 + (rr1 - 0xDC00)))
  else none

/-- What a backslash and one more byte stand for, other than `\u`. -/
def unescape (b : UInt8) : Char :=
  if b = byte 'b' then Char.ofNat 8
  else if b = byte 'f' then Char.ofNat 12
  else if b = byte 'n' then '\n'
  else if b = byte 'r' then '\r'
  else if b = byte 't' then '\t'
  else Char.ofNat b.toNat

def replacement : Char := Char.ofNat 0xFFFD

/-- The first character of what a string literal says, and what is left of it. -/
def unquoteOne (s : Bytes) : Option (Char × Bytes) :=
  match s with
  | [] => none
  | b :: rest =>
    if b = byte '\\' then
      match getu4 s with
      | some rr =>
        if 0xD800 ≤ rr ∧ rr < 0xE000 then
          match (getu4 (s.drop 6)).bind (decodePair rr) with
          | some c => some (c, s.drop 12)
          | none => some (replacement, s.drop 6)
        else some (Char.ofNat rr, s.drop 6)
      | none => rest.head?.map fun e => (unescape e, rest.tail)
    else
      match s.toByteArray.utf8DecodeChar? 0 with
      | some c => some (c, s.drop c.utf8Size)
      | none => some (replacement, rest)

/-- Every character takes a byte at least. -/
def unquoteFrom : Nat → Bytes → List Char
  | 0, _ => []
  | fuel + 1, s =>
    match unquoteOne s with
    | some (c, rest) => c :: unquoteFrom fuel rest
    | none => []

/-- `unquoteBytes`, of what is between the quotes. -/
def unquote (raw : Bytes) : String := String.ofList (unquoteFrom raw.length raw)

/-- Where the lexer is; of a string it keeps the literal. -/
inductive Lexing where
  | between
  | word (letters : Bytes)
  | numeral (literal : Bytes)
  | quoted (raw : Bytes)
  | escaped (raw : Bytes)
  | hex (raw : Bytes) (digits : Nat)
  deriving DecidableEq

def isDigit (b : UInt8) : Bool := byte '0' ≤ b && b ≤ byte '9'

def isLower (b : UInt8) : Bool := byte 'a' ≤ b && b ≤ byte 'z'

def readWord (letters : Bytes) : Option Scalar :=
  if letters = ascii ['t', 'r', 'u', 'e'] then some (.boolean true)
  else if letters = ascii ['f', 'a', 'l', 's', 'e'] then some (.boolean false)
  else if letters = ascii ['n', 'u', 'l', 'l'] then some .null
  else none

/-- The grammar of numbers is the same everywhere. -/
def isNumber (literal : Bytes) : Bool := (Json.readNumber (latin1 literal)).isSome

def Lexing.finish : Lexing → Option (List Token)
  | .between => some []
  | .word letters => (readWord letters).map fun v => [.scalar v]
  | .numeral literal => if isNumber literal then some [.scalar (.number literal)] else none
  | _ => none

def beginToken (b : UInt8) : Option (List Token × Lexing) :=
  if b = 9 ∨ b = 10 ∨ b = 13 ∨ b = 32 then some ([], .between)
  else if b = byte '[' then some ([.openArray], .between)
  else if b = byte ']' then some ([.closeArray], .between)
  else if b = 0x7B then some ([.openObject], .between)
  else if b = 0x7D then some ([.closeObject], .between)
  else if b = byte ':' then some ([.colon], .between)
  else if b = byte ',' then some ([.comma], .between)
  else if b = byte '"' then some ([], .quoted [])
  else if isLower b then some ([], .word [b])
  else if isDigit b ∨ b = byte '-' then some ([], .numeral [b])
  else none

def inNumeral (b : UInt8) : Bool :=
  isDigit b || [byte '-', byte '+', byte '.', byte 'e', byte 'E'].contains b

def Lexing.read (state : Lexing) (b : UInt8) : Option (List Token × Lexing) :=
  let goOn : Option (List Token × Lexing) := do
    let done ← state.finish
    let (more, final) ← beginToken b
    return (done ++ more, final)
  match state with
  | .between => beginToken b
  | .word letters => if isLower b then some ([], .word (letters ++ [b])) else goOn
  | .numeral literal => if inNumeral b then some ([], .numeral (literal ++ [b])) else goOn
  | .quoted raw =>
    if b = byte '"' then some ([.scalar (.string (unquote raw))], .between)
    else if b = byte '\\' then some ([], .escaped (raw ++ [b]))
    else if b < 0x20 then none
    else some ([], .quoted (raw ++ [b]))
  | .escaped raw =>
    if b = byte 'u' then some ([], .hex (raw ++ [b]) 0)
    else if (ascii ['"', '\\', '/', 'b', 'f', 'n', 'r', 't']).contains b then
      some ([], .quoted (raw ++ [b]))
    else none
  | .hex raw digits =>
    if (hexValue b).isSome then
      some ([], if digits = 3 then .quoted (raw ++ [b]) else .hex (raw ++ [b]) (digits + 1))
    else none

def lexer : Lexer UInt8 Lexing Token := ⟨Lexing.read, Lexing.finish⟩

inductive Value where
  | scalar (v : Scalar)
  | array (elements : List Value)
  | object (members : List (String × Value))

/-- An array or an object that is still open. -/
inductive Frame where
  | array (done : List Value)
  | object (done : List (String × Value)) (key : String)

inductive Expecting where
  | element (stack : List Frame)
  | elementOrClose (stack : List Frame)
  | keyOrClose (stack : List Frame)
  | key (stack : List Frame) (done : List (String × Value))
  | colon (stack : List Frame) (done : List (String × Value)) (key : String)
  | separator (stack : List Frame) (v : Value)

def maxNestingDepth : Nat := 10000

/-- A value begins; what it opens is nested in what is open. -/
def beginValue (stack : List Frame) : Token → Option Expecting
  | .scalar v => some (.separator stack (.scalar v))
  | .openArray => if stack.length < maxNestingDepth then some (.elementOrClose stack) else none
  | .openObject => if stack.length < maxNestingDepth then some (.keyOrClose stack) else none
  | _ => none

def Expecting.step : Expecting → Token → Option Expecting
  | .element stack, token => beginValue stack token
  | .elementOrClose stack, .closeArray => some (.separator stack (.array []))
  | .elementOrClose stack, token => beginValue (.array [] :: stack) token
  | .keyOrClose stack, .closeObject => some (.separator stack (.object []))
  | .keyOrClose stack, .scalar (.string name) => some (.colon stack [] name)
  | .key stack done, .scalar (.string name) => some (.colon stack done name)
  | .colon stack done name, .colon => some (.element (.object done name :: stack))
  | .separator (.array done :: stack) v, .comma => some (.element (.array (done ++ [v]) :: stack))
  | .separator (.array done :: stack) v, .closeArray =>
    some (.separator stack (.array (done ++ [v])))
  | .separator (.object done name :: stack) v, .comma => some (.key stack (done ++ [(name, v)]))
  | .separator (.object done name :: stack) v, .closeObject =>
    some (.separator stack (.object (done ++ [(name, v)])))
  | _, _ => none

/-- What a text says, if it is JSON. -/
def parse (data : Bytes) : Option Value := do
  let tokens ← lexer.lex .between data
  match ← tokens.foldlM Expecting.step (.element []) with
  | .separator [] v => return v
  | _ => none

/-! ### The fields of a struct -/

/-- The numbers of type `int64`. -/
def IsInt64 (n : Int) : Prop := -9223372036854775808 ≤ n ∧ n ≤ 9223372036854775807

instance (n : Int) : Decidable (IsInt64 n) := inferInstanceAs (Decidable (_ ∧ _))

/-- `strconv.ParseInt`, in base 10 and 64 bits, of a number. -/
def parseInt (literal : Bytes) : Option Int :=
  match Decimals.readInt (literal.map fun b => Char.ofNat b.toNat) with
  | some n => if IsInt64 n then some n else none
  | none => none

/-- What a value leaves in a field of type `string`. -/
def storeString (held : String) : Value → Option String
  | .scalar .null => some held
  | .scalar (.string s) => some s
  | _ => none

/-- What a value leaves in a field of type `int64`. -/
def storeInt64 (held : Int) : Value → Option Int
  | .scalar .null => some held
  | .scalar (.number literal) => parseInt literal
  | _ => none

/-- `foldRune`, as far as ASCII comes out of it: the Kelvin sign and the long s are
letters too. -/
def foldRune (c : Char) : Char :=
  if c.toNat = 0x212A then 'K' else if c.toNat = 0x17F then 'S' else c.toUpper

/-- Whether a key names a field, exactly or up to case. -/
def names (key field : String) : Bool :=
  key = field || key.toList.map foldRune = field.toList.map foldRune

/-! ### What is written is read -/

/-- A byte that stands for itself in a string. -/
def IsPlain (b : UInt8) : Prop := b ≠ byte '"' ∧ b ≠ byte '\\' ∧ ¬b < 0x20

/-- The bytes of a character are its number in ASCII, and above ASCII otherwise. -/
theorem mem_utf8EncodeChar {c : Char} {b : UInt8} (member : b ∈ String.utf8EncodeChar c) :
    b.toNat = c.toNat ∨ 128 ≤ b.toNat := by
  have number : c.val.toNat = c.toNat := rfl
  unfold String.utf8EncodeChar at member
  simp only [number] at member
  split at member
  · left
    rw [List.mem_singleton.mp member, UInt8.toNat_ofNat']
    omega
  · right
    split at member
    · simp only [List.mem_cons, List.not_mem_nil, or_false] at member
      rcases member with rfl | rfl <;> rw [UInt8.toNat_ofNat'] <;> omega
    · split at member
      · simp only [List.mem_cons, List.not_mem_nil, or_false] at member
        rcases member with rfl | rfl | rfl <;> rw [UInt8.toNat_ofNat'] <;> omega
      · simp only [List.mem_cons, List.not_mem_nil, or_false] at member
        rcases member with rfl | rfl | rfl | rfl <;> rw [UInt8.toNat_ofNat'] <;> omega

/-- The letters of the escapes other than `\u`. -/
def escapeLetters : Bytes := ascii ['"', '\\', '/', 'b', 'f', 'n', 'r', 't']

/-- The ways in which a character is written. -/
inductive Escaped (c : Char) : Bytes → Prop where
  | letter (e : UInt8) (known : e ∈ escapeLetters) (meaning : unescape e = c) :
    Escaped c [byte '\\', e]
  | code (w x y z : Nat) (small : w < 16 ∧ x < 16 ∧ y < 16 ∧ z < 16)
    (number : ((w * 16 + x) * 16 + y) * 16 + z = c.toNat) :
    Escaped c [byte '\\', byte 'u', hexDigit w, hexDigit x, hexDigit y, hexDigit z]
  | plain (plain : ∀ b ∈ String.utf8EncodeChar c, IsPlain b) : Escaped c (String.utf8EncodeChar c)

theorem escaped_escape (c : Char) : Escaped c (escape c) := by
  unfold escape
  split
  · next special =>
    rcases special with rfl | rfl
    · exact .letter _ (by decide) rfl
    · exact .letter _ (by decide) rfl
  split
  · next eight => exact .letter (byte 'b') (by decide) (Char.toNat_inj.mp eight.symm)
  split
  · next twelve => exact .letter (byte 'f') (by decide) (Char.toNat_inj.mp twelve.symm)
  split
  · next same => exact .letter (byte 'n') (by decide) same.symm
  split
  · next same => exact .letter (byte 'r') (by decide) same.symm
  split
  · next same => exact .letter (byte 't') (by decide) same.symm
  split
  · next hidden =>
    have small : c.toNat < 256 := by
      rcases hidden with low | rfl | rfl | rfl
      · omega
      · decide
      · decide
      · decide
    exact .code 0 0 (c.toNat / 16) (c.toNat % 16) (by omega) (by omega)
  split
  · next separator =>
    exact .code 2 0 2 (c.toNat % 16) (by omega) (by omega)
  · next notQuote _ _ _ _ _ visible _ =>
    simp only [not_or] at notQuote visible
    have quote_ne : c.toNat ≠ 34 := fun same => notQuote.1 (Char.toNat_inj.mp same)
    have backslash_ne : c.toNat ≠ 92 := fun same => notQuote.2 (Char.toNat_inj.mp same)
    apply Escaped.plain
    intro b member
    have value := mem_utf8EncodeChar member
    refine ⟨?_, ?_, ?_⟩
    · rintro rfl
      have number : (byte '"').toNat = 34 := rfl
      omega
    · rintro rfl
      have number : (byte '\\').toNat = 92 := rfl
      omega
    · rw [UInt8.lt_iff_toNat_lt]
      have number : (0x20 : UInt8).toNat = 32 := rfl
      omega

theorem hexValue_hexDigit {n : Nat} (small : n < 16) : hexValue (hexDigit n) = some n := by
  have all : ∀ n : Fin 16, hexValue (hexDigit n) = some n.val := by decide
  exact all ⟨n, small⟩

theorem run_plain {raw bytes : Bytes} (plain : ∀ b ∈ bytes, IsPlain b) :
    Run lexer (.quoted raw) bytes [] (.quoted (raw ++ bytes)) := by
  apply Run.each Lexing.quoted
  intro seen b member
  obtain ⟨quote_ne, backslash_ne, visible⟩ := plain b member
  change Lexing.read (.quoted seen) b = _
  simp only [Lexing.read, if_neg quote_ne, if_neg backslash_ne, if_neg visible]

/-- The letters are those that the lexer takes, and none begins a number. -/
theorem escapeLetters_ne_u {e : UInt8} (known : e ∈ escapeLetters) : e ≠ byte 'u' := by
  rintro rfl
  exact absurd known (by decide)

/-- A digit of a number is taken, the last one with the number. -/
theorem read_hex {n : Nat} (small : n < 16) (raw : Bytes) (digits : Nat) :
    lexer.read (.hex raw digits) (hexDigit n) =
      some ([], if digits = 3 then .quoted (raw ++ [hexDigit n])
        else .hex (raw ++ [hexDigit n]) (digits + 1)) := by
  change Lexing.read (.hex raw digits) (hexDigit n) = _
  simp only [Lexing.read, hexValue_hexDigit small, Option.isSome_some, if_true]

theorem read_backslash (raw : Bytes) :
    lexer.read (.quoted raw) (byte '\\') = some ([], .escaped (raw ++ [byte '\\'])) := rfl

/-- The four digits of a code. -/
theorem run_code {w x y z : Nat} (small : w < 16 ∧ x < 16 ∧ y < 16 ∧ z < 16) (raw : Bytes) :
    Run lexer (.hex raw 0) [hexDigit w, hexDigit x, hexDigit y, hexDigit z] []
      (.quoted (raw ++ [hexDigit w, hexDigit x, hexDigit y, hexDigit z])) := by
  obtain ⟨w_small, x_small, y_small, z_small⟩ := small
  have run := Run.cons (read_hex w_small raw 0) (Run.cons (read_hex x_small _ 1)
    (Run.cons (read_hex y_small _ 2) (Run.one (read_hex z_small _ 3))))
  simpa using run

theorem run_escaped {c : Char} {written : Bytes} (raw : Bytes) (escaped : Escaped c written) :
    Run lexer (.quoted raw) written [] (.quoted (raw ++ written)) := by
  cases escaped with
  | letter e known meaning =>
    apply Run.cons (read_backslash raw)
    have read : lexer.read (.escaped (raw ++ [byte '\\'])) e =
        some ([], .quoted (raw ++ [byte '\\'] ++ [e])) := by
      change Lexing.read (.escaped (raw ++ [byte '\\'])) e = _
      simp only [Lexing.read, if_neg (escapeLetters_ne_u known)]
      exact if_pos (List.contains_iff_mem.mpr known)
    have last := Run.one read
    rw [List.append_assoc] at last
    exact last
  | code w x y z small number =>
    have code := run_code small (raw ++ [byte '\\'] ++ [byte 'u'])
    rw [List.append_assoc, List.append_assoc] at code
    have second : lexer.read (.escaped (raw ++ [byte '\\'])) (byte 'u') =
        some ([], .hex (raw ++ [byte '\\'] ++ [byte 'u']) 0) := rfl
    apply Run.cons (read_backslash raw)
    apply Run.cons second
    rw [List.append_assoc]
    exact code
  | plain plain => exact run_plain plain

theorem getu4_code {w x y z : Nat} (small : w < 16 ∧ x < 16 ∧ y < 16 ∧ z < 16) (rest : Bytes) :
    getu4 ([byte '\\', byte 'u', hexDigit w, hexDigit x, hexDigit y, hexDigit z] ++ rest) =
      some (((w * 16 + x) * 16 + y) * 16 + z) := by
  obtain ⟨w_small, x_small, y_small, z_small⟩ := small
  simp [getu4, hexValue_hexDigit, w_small, x_small, y_small, z_small]

theorem getu4_letter {e : UInt8} (known : e ∈ escapeLetters) (rest : Bytes) :
    getu4 (byte '\\' :: e :: rest) = none := by
  unfold getu4
  split
  · next same =>
    obtain ⟨rfl, rfl, rfl⟩ : _ ∧ _ ∧ _ := by simpa using same
    exact if_neg fun begun => escapeLetters_ne_u known begun.2
  · rfl

theorem unquoteOne_escaped {c : Char} {written : Bytes} (escaped : Escaped c written)
    (rest : Bytes) : unquoteOne (written ++ rest) = some (c, rest) := by
  cases escaped with
  | letter e known meaning =>
    have plain : getu4 (byte '\\' :: e :: rest) = none := getu4_letter known rest
    simp [unquoteOne, plain, meaning]
  | code w x y z small number =>
    have code := getu4_code small rest
    have scalar : c.toNat < 0xD800 ∨ 0xDFFF < c.toNat ∧ c.toNat < 0x110000 := c.valid
    have single : ¬(0xD800 ≤ c.toNat ∧ c.toNat < 0xE000) := by omega
    rw [number] at code
    simp only [List.cons_append, List.nil_append] at code ⊢
    simp only [unquoteOne, if_true, code, if_neg single, Char.ofNat_toNat]
    rfl
  | plain plain =>
    obtain ⟨b, more, split⟩ : ∃ b more, String.utf8EncodeChar c = b :: more := by
      apply List.exists_cons_of_length_pos
      rw [String.length_utf8EncodeChar]
      exact c.utf8Size_pos
    have first : b ≠ byte '\\' := (plain b (split ▸ List.mem_cons_self)).2.1
    have decoded : (b :: (more ++ rest)).toByteArray.utf8DecodeChar? 0 = some c := by
      have read := ByteArray.utf8DecodeChar?_utf8EncodeChar_append (b := rest.toByteArray) (c := c)
      rw [split, ← List.toByteArray_append] at read
      exact read
    have left : (b :: (more ++ rest)).drop c.utf8Size = rest := by
      rw [← String.length_utf8EncodeChar, split, ← List.cons_append]
      exact List.drop_left
    rw [split, List.cons_append]
    simp only [unquoteOne, if_neg first, decoded, left]

/-- With a step for every byte, reading gets to the end. -/
theorem unquoteFrom_escape (cs : List Char) (fuel : Nat)
    (enough : (cs.flatMap escape).length ≤ fuel) : unquoteFrom fuel (cs.flatMap escape) = cs := by
  induction cs generalizing fuel with
  | nil => cases fuel <;> rfl
  | cons c cs ih =>
    have read := unquoteOne_escaped (escaped_escape c) (cs.flatMap escape)
    have takes : 0 < (escape c).length := by
      apply List.length_pos_iff.mpr
      intro nothing
      have alone := unquoteOne_escaped (escaped_escape c) []
      rw [nothing] at alone
      cases alone
    rw [List.flatMap_cons, List.length_append] at enough
    cases fuel with
    | zero => omega
    | succ fuel =>
      rw [List.flatMap_cons, unquoteFrom, read]
      exact congrArg (c :: ·) (ih fuel (by omega))

theorem unquote_escape (s : String) : unquote (s.toList.flatMap escape) = s := by
  rw [unquote, unquoteFrom_escape s.toList _ (Nat.le_refl _), String.ofList_toList]

/-- A string is read as it was. -/
theorem run_quote (s : String) :
    Run lexer .between (quote s) [.scalar (.string s)] .between := by
  have inside : ∀ (cs : List Char) (raw : Bytes),
      Run lexer (.quoted raw) (cs.flatMap escape) [] (.quoted (raw ++ cs.flatMap escape)) := by
    intro cs
    induction cs with
    | nil =>
      intro raw
      rw [List.flatMap_nil, List.append_nil]
      exact Run.nil _
    | cons c cs ih =>
      intro raw
      rw [List.flatMap_cons, ← List.append_assoc]
      exact (run_escaped raw (escaped_escape c)).append (ih (raw ++ escape c))
  have opened : lexer.read .between (byte '"') = some ([], .quoted []) := rfl
  have closed : lexer.read (.quoted (s.toList.flatMap escape)) (byte '"') =
      some ([.scalar (.string s)], .between) := by
    change some ([Token.scalar (.string (unquote (s.toList.flatMap escape)))], _) = _
    rw [unquote_escape]
  exact Run.cons opened ((inside s.toList []).append (Run.one closed))

/-! ### Integers -/

theorem toNat_byte {c : Char} (ascii : c.toNat < 128) : (byte c).toNat = c.toNat := by
  rw [byte, UInt8.toNat_ofNat']
  omega

theorem ofNat_byte {c : Char} (ascii : c.toNat < 128) : Char.ofNat (byte c).toNat = c := by
  rw [toNat_byte ascii, Char.ofNat_toNat]

theorem ofNat_ascii {cs : List Char} (all_ascii : ∀ c ∈ cs, c.toNat < 128) :
    (ascii cs).map (fun b => Char.ofNat b.toNat) = cs := by
  rw [ascii, List.map_map]
  conv => rhs; rw [← List.map_id cs]
  apply List.map_congr_left
  intro c member
  exact ofNat_byte (all_ascii c member)

theorem latin1_ascii {cs : List Char} (all_ascii : ∀ c ∈ cs, c.toNat < 128) :
    latin1 (ascii cs) = cs.map Json.unit := by
  rw [latin1, ascii, List.map_map]
  apply List.map_congr_left
  intro c member
  apply UInt16.toNat_inj.mp
  rw [Function.comp_apply, UInt8.toNat_toUInt16, toNat_byte (all_ascii c member), Json.unit,
    UInt16.toNat_ofNat']
  have small := all_ascii c member
  omega

theorem repr_ascii (n : Int) : ∀ c ∈ n.repr.toList, c.toNat < 128 := by
  intro c member
  rcases Decimals.repr_chars n c member with rfl | digit
  · decide
  · have range := Doubles.digit_range digit
    omega

theorem isNumber_appendInt (n : Int) : isNumber (appendInt n) = true := by
  rw [isNumber, appendInt, latin1_ascii (repr_ascii n), Doubles.readNumber_repr]
  rfl

theorem parseInt_appendInt {n : Int} (fits : IsInt64 n) : parseInt (appendInt n) = some n := by
  rw [parseInt, appendInt, ofNat_ascii (repr_ascii n), Decimals.readInt_repr]
  exact if_pos fits

theorem isDigit_byte {c : Char} (digit : c.isDigit) : isDigit (byte c) = true := by
  have range := Doubles.digit_range digit
  have value := toNat_byte (c := c) (by omega)
  rw [isDigit, Bool.and_eq_true, decide_eq_true_eq, decide_eq_true_eq, UInt8.le_iff_toNat_le,
    UInt8.le_iff_toNat_le, value]
  exact range

theorem inNumeral_byte {c : Char} (numeral : c = '-' ∨ c.isDigit) : inNumeral (byte c) = true := by
  rcases numeral with rfl | digit
  · rfl
  · rw [inNumeral, isDigit_byte digit]
    rfl

theorem beginToken_byte {c : Char} (numeral : c = '-' ∨ c.isDigit) :
    beginToken (byte c) = some ([], .numeral [byte c]) := by
  rcases numeral with rfl | digit
  · rfl
  · have all : ∀ k : Fin 10, beginToken (UInt8.ofNat (48 + k)) =
        some ([], .numeral [UInt8.ofNat (48 + k)]) := by decide
    have range := Doubles.digit_range digit
    have place : byte c = UInt8.ofNat (48 + (⟨c.toNat - 48, by omega⟩ : Fin 10)) := by
      rw [byte, Nat.add_sub_of_le range.1]
    rw [place]
    exact all _

/-- A numeral is read until something else begins. -/
theorem run_appendInt (n : Int) : Run lexer .between (appendInt n) [] (.numeral (appendInt n)) := by
  obtain ⟨c, more, split, first, others⟩ := Decimals.repr_cons n
  rw [appendInt, split, ascii, List.map_cons]
  apply Run.begins (beginToken_byte first)
  intro seen b member
  obtain ⟨d, inside, rfl⟩ := List.mem_map.mp member
  exact if_pos (inNumeral_byte (others d inside))

/-- The brace behind a numeral closes both. -/
theorem read_closing (n : Int) : lexer.read (.numeral (appendInt n)) 0x7D =
    some ([.scalar (.number (appendInt n)), .closeObject], .between) := by
  have ends : inNumeral 0x7D = false := rfl
  have begins : beginToken 0x7D = some ([.closeObject], .between) := rfl
  change Lexing.read (.numeral (appendInt n)) 0x7D = _
  simp [Lexing.read, Lexing.finish, ends, begins, isNumber_appendInt]

end Hwfa.GoJson
