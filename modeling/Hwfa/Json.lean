/-!
JSON as ECMAScript reads and writes it.

A text is a sequence of UTF-16 code units, lone surrogates included.  A number
is the double nearest to its literal, counted in units of the least positive
double, so that equal numbers are equal values; the two zeros are one number.
`parse` is a lexer that takes one code unit at a time and a parser that takes
one token at a time, with a stack of the arrays and objects that are still open.
-/

namespace Hwfa.Json

/-- A string: UTF-16 code units, lone surrogates included. -/
abbrev Text := List UInt16

def unit (c : Char) : UInt16 := UInt16.ofNat c.toNat

def utf16 (s : String) : Text := s.toList.flatMap fun c =>
  if c.toNat < 0x10000 then [unit c]
  else
    let rest := c.toNat - 0x10000
    [UInt16.ofNat (0xD800 + rest / 0x400), UInt16.ofNat (0xDC00 + rest % 0x400)]

/-- The number of a character is the one that it was made of. -/
theorem toNat_ofNat {n : Nat} (valid : n.isValidChar) : (Char.ofNat n).toNat = n := by
  rw [Char.ofNat, dif_pos valid]
  rfl

/-- The decimal digits of a natural number. -/
def decimal (n : Nat) : Text := (Nat.toDigits 10 n).map unit

def isDigit (u : UInt16) : Bool := unit '0' ≤ u && u ≤ unit '9'

def isLower (u : UInt16) : Bool := unit 'a' ≤ u && u ≤ unit 'z'

def readDigits (digits : Text) : Nat := digits.foldl (fun n u => n * 10 + (u - unit '0').toNat) 0

/-! ### Numbers -/

/-- A double other than NaN.  A finite one is a multiple of the least positive
double, two to the power -1074. -/
inductive Number where
  | finite (quanta : Int)
  | infinite (negative : Bool)
  deriving DecidableEq

/-- How many quanta one is. -/
def one : Nat := Nat.pow 2 1074

/-- The number of quanta of the double nearest to `n / d`, ties to even, without
a bound on its size. -/
def nearest (n d : Nat) : Nat :=
  let size := n * one
  let place := Nat.pow 2 ((size / d).log2 - 52)
  let whole := size / (d * place)
  let excess := size % (d * place)
  let rounded :=
    if 2 * excess < d * place then whole
    else if d * place < 2 * excess then whole + 1
    else whole + whole % 2
  rounded * place

/-- The double of the decimal `n * 10 ^ e`. -/
def Number.ofDecimal (negative : Bool) (n : Nat) (e : Int) : Number :=
  let size := nearest (n * Nat.pow 10 e.toNat) (Nat.pow 10 (-e).toNat)
  if Nat.pow 2 2098 ≤ size then .infinite negative
  else .finite (if negative then -(size : Int) else size)

/-- The shortest decimal `(digits, point)` whose double is the positive one of
that many quanta: its value is `0.digits` times ten to the power `point`. -/
def shortest (size : Nat) : Nat × Int :=
  let point : Int :=
    if one ≤ size then (Nat.toDigits 10 (size / one)).length
    else 1 - (((List.range 330).find? fun j => one ≤ size * Nat.pow 10 j).getD 0 : Nat)
  let attempt (k : Nat) : Option (Nat × Int) :=
    let e := (k : Int) - point
    let n := size * Nat.pow 10 e.toNat
    let d := one * Nat.pow 10 (-e).toNat
    let low := n / d
    let closest := if 2 * (n % d) ≤ d then [low, low + 1] else [low + 1, low]
    (closest.find? fun s => Number.ofDecimal false s (-e) = .finite size).map fun s =>
      if s = Nat.pow 10 k then (1, point + 1) else (s, point)
  ((List.range 17).findSome? fun k => attempt (k + 1)).getD (0, 1)

/-- `Number::toString` of a positive double. -/
def sizeText (size : Nat) : Text :=
  let (s, point) := shortest size
  let digits := decimal s
  let k := digits.length
  let zeros (n : Nat) : Text := List.replicate n (unit '0')
  let dot : Text := [unit '.']
  if k ≤ point ∧ point ≤ 21 then digits ++ zeros (point.toNat - k)
  else if 0 < point ∧ point ≤ 21 then digits.take point.toNat ++ dot ++ digits.drop point.toNat
  else if -6 < point ∧ point ≤ 0 then utf16 "0." ++ zeros (-point).toNat ++ digits
  else
    let exponent := point - 1
    let sign := if exponent < 0 then utf16 "e-" else utf16 "e+"
    let mantissa := if k = 1 then digits else digits.take 1 ++ dot ++ digits.drop 1
    mantissa ++ sign ++ decimal exponent.natAbs

def Number.text : Number → Text
  | .infinite negative => utf16 (if negative then "-Infinity" else "Infinity")
  | .finite quanta =>
    if quanta = 0 then utf16 "0"
    else if quanta < 0 then unit '-' :: sizeText quanta.natAbs
    else sizeText quanta.natAbs

/-- A JSON number, if all of the text is one. -/
def readNumber (t : Text) : Option Number := do
  let negative := t.head? = some (unit '-')
  let t := if negative then t.drop 1 else t
  let whole := t.takeWhile isDigit
  guard (whole ≠ [] ∧ (whole.length = 1 ∨ whole.head? ≠ some (unit '0')))
  let t := t.dropWhile isDigit
  let dotted := t.head? = some (unit '.')
  let fraction := if dotted then (t.drop 1).takeWhile isDigit else []
  guard (dotted → fraction ≠ [])
  let t := if dotted then (t.drop 1).dropWhile isDigit else t
  let scaled := t.head? = some (unit 'e') ∨ t.head? = some (unit 'E')
  let signed := t[1]? = some (unit '+') ∨ t[1]? = some (unit '-')
  let exponent := if scaled then t.drop (if signed then 2 else 1) else []
  guard (if scaled then exponent ≠ [] ∧ exponent.all isDigit else t = [])
  let e : Int := if t[1]? = some (unit '-') then -(readDigits exponent) else readDigits exponent
  return .ofDecimal negative (readDigits (whole ++ fraction)) (e - fraction.length)

/-! ### Values -/

inductive Primitive where
  | undefined
  | null
  | boolean (b : Bool)
  | number (n : Number)
  | string (t : Text)
  deriving DecidableEq

/-- What JSON denotes, and `undefined` for what is not there.  The members of an
object are its own properties in the order in which they were created. -/
inductive Value where
  | primitive (p : Primitive)
  | array (elements : List Value)
  | object (members : List (Text × Value))

namespace Value

@[match_pattern] abbrev undefined : Value := .primitive .undefined
@[match_pattern] abbrev null : Value := .primitive .null
@[match_pattern] abbrev boolean (b : Bool) : Value := .primitive (.boolean b)
@[match_pattern] abbrev number (n : Number) : Value := .primitive (.number n)
@[match_pattern] abbrev string (t : Text) : Value := .primitive (.string t)

mutual

def decEq : ∀ v w : Value, Decidable (v = w)
  | .primitive p, .primitive q => decidable_of_iff (p = q) (by simp)
  | .array xs, .array ys => @decidable_of_iff _ (xs = ys) (by simp) (decEqElements xs ys)
  | .object xs, .object ys => @decidable_of_iff _ (xs = ys) (by simp) (decEqMembers xs ys)
  | .primitive _, .array _ | .primitive _, .object _ => isFalse (by simp)
  | .array _, .primitive _ | .array _, .object _ => isFalse (by simp)
  | .object _, .primitive _ | .object _, .array _ => isFalse (by simp)

def decEqElements : ∀ xs ys : List Value, Decidable (xs = ys)
  | [], [] => isTrue rfl
  | [], _ :: _ | _ :: _, [] => isFalse (by simp)
  | x :: xs, y :: ys =>
    @decidable_of_iff _ (x = y ∧ xs = ys) (by simp)
      (@instDecidableAnd _ _ (decEq x y) (decEqElements xs ys))

def decEqMembers : ∀ xs ys : List (Text × Value), Decidable (xs = ys)
  | [], [] => isTrue rfl
  | [], _ :: _ | _ :: _, [] => isFalse (by simp)
  | (k, x) :: xs, (l, y) :: ys =>
    @decidable_of_iff _ (k = l ∧ x = y ∧ xs = ys) (by simp [and_assoc])
      (@instDecidableAnd _ _ (inferInstanceAs (Decidable (k = l)))
        (@instDecidableAnd _ _ (decEq x y) (decEqMembers xs ys)))

end

instance : DecidableEq Value := decEq

/-- A property of a value, `undefined` where it has none of its own. -/
def get : Value → String → Value
  | .object members, name => ((members.find? fun m => m.1 = utf16 name).map (·.2)).getD undefined
  | _, _ => undefined

def truthy : Value → Bool
  | undefined | null | boolean false | number (.finite 0) | string [] => false
  | _ => true

def nullish : Value → Bool
  | undefined | null => true
  | _ => false

end Value

/-! ### Reading -/

inductive Token where
  | openArray
  | closeArray
  | openObject
  | closeObject
  | colon
  | comma
  | scalar (p : Primitive)
  deriving DecidableEq

/-- Where the lexer is. -/
inductive Lexing where
  | between
  | word (letters : Text)
  | numeral (characters : Text)
  | quoted (done : Text)
  | escaped (done : Text)
  | hex (done : Text) (digits : List Nat)

def hexDigit (u : UInt16) : Option Nat :=
  if isDigit u then some (u - unit '0').toNat
  else if unit 'a' ≤ u && u ≤ unit 'f' then some ((u - unit 'a').toNat + 10)
  else if unit 'A' ≤ u && u ≤ unit 'F' then some ((u - unit 'A').toNat + 10)
  else none

/-- What a backslash and one more unit stand for, other than `\u`. -/
def unescape (u : UInt16) : Option UInt16 :=
  if u = unit '"' ∨ u = unit '\\' ∨ u = unit '/' then some u
  else if u = unit 'b' then some 8
  else if u = unit 'f' then some 12
  else if u = unit 'n' then some 10
  else if u = unit 'r' then some 13
  else if u = unit 't' then some 9
  else none

def readWord (letters : Text) : Option Token :=
  if letters = utf16 "true" then some (.scalar (.boolean true))
  else if letters = utf16 "false" then some (.scalar (.boolean false))
  else if letters = utf16 "null" then some (.scalar .null)
  else none

/-- A word or a number ends where something else begins. -/
def Lexing.finish : Lexing → Option (List Token)
  | .between => some []
  | .word letters => (readWord letters).map fun token => [token]
  | .numeral characters => (readNumber characters).map fun n => [.scalar (.number n)]
  | _ => none

def beginToken (u : UInt16) : Option (List Token × Lexing) :=
  if u = 9 ∨ u = 10 ∨ u = 13 ∨ u = 32 then some ([], .between)
  else if u = unit '[' then some ([.openArray], .between)
  else if u = unit ']' then some ([.closeArray], .between)
  else if u = 0x7B then some ([.openObject], .between)
  else if u = 0x7D then some ([.closeObject], .between)
  else if u = unit ':' then some ([.colon], .between)
  else if u = unit ',' then some ([.comma], .between)
  else if u = unit '"' then some ([], .quoted [])
  else if isLower u then some ([], .word [u])
  else if isDigit u ∨ u = unit '-' then some ([], .numeral [u])
  else none

def inNumeral (u : UInt16) : Bool :=
  isDigit u || u ∈ [unit '-', unit '+', unit '.', unit 'e', unit 'E']

def Lexing.read (state : Lexing) (u : UInt16) : Option (List Token × Lexing) :=
  let goOn : Option (List Token × Lexing) := do
    let done ← state.finish
    let (more, next) ← beginToken u
    return (done ++ more, next)
  match state with
  | .between => goOn
  | .word letters => if isLower u then some ([], .word (letters ++ [u])) else goOn
  | .numeral characters => if inNumeral u then some ([], .numeral (characters ++ [u])) else goOn
  | .quoted done =>
    if u = unit '"' then some ([.scalar (.string done)], .between)
    else if u = unit '\\' then some ([], .escaped done)
    else if u < 0x20 then none
    else some ([], .quoted (done ++ [u]))
  | .escaped done =>
    if u = unit 'u' then some ([], .hex done [])
    else (unescape u).map fun v => ([], .quoted (done ++ [v]))
  | .hex done digits => do
    let d ← hexDigit u
    match digits with
    | [a, b, c] => return ([], .quoted (done ++ [UInt16.ofNat (((a * 16 + b) * 16 + c) * 16 + d)]))
    | _ => return ([], .hex done (digits ++ [d]))

def lex : Lexing → Text → Option (List Token)
  | state, [] => state.finish
  | state, u :: rest => do
    let (tokens, next) ← state.read u
    let more ← lex next rest
    return tokens ++ more

/-- An array or an object that is still open, with what it holds already; an
object is waiting for the value of `key`. -/
inductive Frame where
  | array (done : List Value)
  | object (done : List (Text × Value)) (key : Text)

/-- What the parser expects next, inside the open arrays and objects. -/
inductive Expecting where
  | element (stack : List Frame)
  /-- behind `[` -/
  | elementOrClose (stack : List Frame)
  /-- behind the brace that opens an object -/
  | keyOrClose (stack : List Frame)
  | key (stack : List Frame) (done : List (Text × Value))
  | colon (stack : List Frame) (done : List (Text × Value)) (key : Text)
  /-- behind the value `v` -/
  | separator (stack : List Frame) (v : Value)

/-- A later member replaces an earlier one of the same name, in its place. -/
def setMember : List (Text × Value) → Text → Value → List (Text × Value)
  | [], key, v => [(key, v)]
  | (k, w) :: rest, key, v => if k = key then (k, v) :: rest else (k, w) :: setMember rest key v

def beginValue (stack : List Frame) : Token → Option Expecting
  | .scalar p => some (.separator stack (.primitive p))
  | .openArray => some (.elementOrClose stack)
  | .openObject => some (.keyOrClose stack)
  | _ => none

def Expecting.step : Expecting → Token → Option Expecting
  | .element stack, token => beginValue stack token
  | .elementOrClose stack, .closeArray => some (.separator stack (.array []))
  | .elementOrClose stack, token => beginValue (.array [] :: stack) token
  | .keyOrClose stack, .closeObject => some (.separator stack (.object []))
  | .keyOrClose stack, .scalar (.string name) => some (.colon stack [] name)
  | .key stack done, .scalar (.string name) => some (.colon stack done name)
  | .colon stack done name, .colon => some (.element (.object done name :: stack))
  | .separator (.array done :: stack) v, .comma => some (.element (.array (done ++ [v]) :: stack))
  | .separator (.array done :: stack) v, .closeArray =>
    some (.separator stack (.array (done ++ [v])))
  | .separator (.object done name :: stack) v, .comma => some (.key stack (setMember done name v))
  | .separator (.object done name :: stack) v, .closeObject =>
    some (.separator stack (.object (setMember done name v)))
  | _, _ => none

/-- `JSON.parse`, `none` where it throws. -/
def parse (text : Text) : Option Value := do
  let tokens ← lex .between text
  match ← tokens.foldlM Expecting.step (.element []) with
  | .separator [] v => return v
  | _ => none

/-! ### Writing -/

def isLeading (u : UInt16) : Bool := 0xD800 ≤ u && u < 0xDC00

def isTrailing (u : UInt16) : Bool := 0xDC00 ≤ u && u < 0xE000

def hexDigits (u : UInt16) : Text :=
  [u / 0x1000, u / 0x100 % 0x10, u / 0x10 % 0x10, u % 0x10].map fun d =>
    if d < 10 then unit '0' + d else unit 'a' + (d - 10)

/-- One unit of a quoted text; a surrogate only when it is lone. -/
def escapeUnit (u : UInt16) : Text :=
  if u = 8 then utf16 "\\b"
  else if u = 9 then utf16 "\\t"
  else if u = 10 then utf16 "\\n"
  else if u = 12 then utf16 "\\f"
  else if u = 13 then utf16 "\\r"
  else if u = unit '"' ∨ u = unit '\\' then [unit '\\', u]
  else if u < 0x20 ∨ isLeading u ∨ isTrailing u then utf16 "\\u" ++ hexDigits u
  else [u]

def escape : Text → Text
  | [] => []
  | [u] => escapeUnit u
  | u :: v :: rest =>
    if isLeading u ∧ isTrailing v then u :: v :: escape rest
    else escapeUnit u ++ escape (v :: rest)

def quote (t : Text) : Text := unit '"' :: escape t ++ [unit '"']

def join (separator : Text) (parts : List Text) : Text := (parts.intersperse separator).flatten

/-- An array index: the decimal of a number below two to the power 32 less one. -/
def arrayIndex (t : Text) : Option Nat :=
  let n := readDigits t
  if t.all isDigit ∧ t = decimal n ∧ n < 0xFFFFFFFF then some n else none

/-- The order in which own properties are listed: array indices first, by size. -/
def ownKeysFirst (parts : List (Text × Text)) : List (Text × Text) :=
  let indices := parts.filter fun m => (arrayIndex m.1).isSome
  let others := parts.filter fun m => (arrayIndex m.1).isNone
  indices.mergeSort (fun a b => (arrayIndex a.1).getD 0 ≤ (arrayIndex b.1).getD 0) ++ others

mutual

/-- `JSON.stringify`, `none` for `undefined`. -/
def stringify : Value → Option Text
  | .primitive p => match p with
    | .undefined => none
    | .null => some (utf16 "null")
    | .boolean b => some (utf16 (if b then "true" else "false"))
    | .number (.infinite _) => some (utf16 "null")
    | .number n => some n.text
    | .string t => some (quote t)
  | .array elements =>
    some (unit '[' :: join [unit ','] (stringifyElements elements) ++ [unit ']'])
  | .object members =>
    let parts := (ownKeysFirst (stringifyMembers members)).map fun m => quote m.1 ++ unit ':' :: m.2
    some (0x7B :: join [unit ','] parts ++ [0x7D])

/-- An element that is not there is written `null`. -/
def stringifyElements : List Value → List Text
  | [] => []
  | v :: rest => (stringify v).getD (utf16 "null") :: stringifyElements rest

/-- A member that is not there is left out. -/
def stringifyMembers : List (Text × Value) → List (Text × Text)
  | [] => []
  | (k, v) :: rest =>
    match stringify v with
    | some t => (k, t) :: stringifyMembers rest
    | none => stringifyMembers rest

end

mutual

/-- What a template literal makes of a value, `none` where it throws: an object
that has a property `toString` of its own cannot be converted. -/
def toText : Value → Option Text
  | .primitive p => match p with
    | .undefined => some (utf16 "undefined")
    | .null => some (utf16 "null")
    | .boolean b => some (utf16 (if b then "true" else "false"))
    | .number n => some n.text
    | .string t => some t
  | .array elements => (elementsToText elements).map (join [unit ','])
  | .object members =>
    if members.any fun m => m.1 = utf16 "toString" then none else some (utf16 "[object Object]")

def elementsToText : List Value → Option (List Text)
  | [] => some []
  | v :: rest => do
    let t ← if v.nullish then some [] else toText v
    let more ← elementsToText rest
    return t :: more

end

/-! ### Written and read again -/

/-- The own properties of an object as they are listed: array indices first. -/
def indexFirst (members : List (Text × Value)) : List (Text × Value) :=
  let indices := members.filter fun m => (arrayIndex m.1).isSome
  let others := members.filter fun m => (arrayIndex m.1).isNone
  indices.mergeSort (fun a b => (arrayIndex a.1).getD 0 ≤ (arrayIndex b.1).getD 0) ++ others

mutual

/-- What `JSON.parse` makes of what `JSON.stringify` writes: an infinite number
is written `null`, an element that is `undefined` as well, and such a member is
left out. -/
def reread : Value → Value
  | .primitive p => match p with
    | .number (.infinite _) => .null
    | p => .primitive p
  | .array elements => .array (rereadElements elements)
  | .object members => .object (indexFirst (rereadMembers members))

def rereadElements : List Value → List Value
  | [] => []
  | v :: rest => (if v = .undefined then .null else reread v) :: rereadElements rest

def rereadMembers : List (Text × Value) → List (Text × Value)
  | [] => []
  | (k, v) :: rest =>
    if v = .undefined then rereadMembers rest else (k, reread v) :: rereadMembers rest

end

mutual

/-- The same value with its properties as they are listed. -/
def canonical : Value → Value
  | .primitive p => .primitive p
  | .array elements => .array (canonicalElements elements)
  | .object members => .object (indexFirst (canonicalMembers members))

def canonicalElements : List Value → List Value
  | [] => []
  | v :: rest => canonical v :: canonicalElements rest

def canonicalMembers : List (Text × Value) → List (Text × Value)
  | [] => []
  | (k, v) :: rest => (k, canonical v) :: canonicalMembers rest

end

mutual

/-- A value that JSON keeps: it has no infinite number, and nothing `undefined`
inside. -/
def isKept : Value → Bool
  | .primitive p => match p with
    | .number (.infinite _) => false
    | _ => true
  | .array elements => keptElements elements
  | .object members => keptMembers members

def keptElements : List Value → Bool
  | [] => true
  | v :: rest => v ≠ .undefined && isKept v && keptElements rest

def keptMembers : List (Text × Value) → Bool
  | [] => true
  | (_, v) :: rest => v ≠ .undefined && isKept v && keptMembers rest

end

theorem Value.induction {P : Value → Prop} (primitive : ∀ p, P (.primitive p))
    (array : ∀ elements, (∀ v ∈ elements, P v) → P (.array elements))
    (object : ∀ members, (∀ m ∈ members, P m.2) → P (.object members)) (v : Value) : P v :=
  @Value.rec P (fun elements => ∀ v ∈ elements, P v) (fun members => ∀ m ∈ members, P m.2)
    (fun m => P m.2) primitive array object
    (fun _ member => absurd member List.not_mem_nil)
    (fun _ _ first rest => List.forall_mem_cons.mpr ⟨first, rest⟩)
    (fun _ member => absurd member List.not_mem_nil)
    (fun _ _ first rest => List.forall_mem_cons.mpr ⟨first, rest⟩)
    (fun _ _ value => value) v

/-- The same value, whatever order the properties were created in. -/
def Same (v w : Value) : Prop := canonical v = canonical w

theorem indexFirst_perm (members : List (Text × Value)) :
    (indexFirst members).Perm members := by
  unfold indexFirst
  refine ((List.mergeSort_perm _ _).append_right _).trans ?_
  have split := List.filter_append_perm (fun m : Text × Value => (arrayIndex m.1).isSome) members
  simpa using split


theorem mem_indexFirst {members : List (Text × Value)} {m : Text × Value} :
    m ∈ indexFirst members ↔ m ∈ members := (indexFirst_perm members).mem_iff

/-- Listing the properties again changes nothing. -/
theorem indexFirst_idem (members : List (Text × Value)) :
    indexFirst (indexFirst members) = indexFirst members := by
  let le (a b : Text × Value) : Bool := (arrayIndex a.1).getD 0 ≤ (arrayIndex b.1).getD 0
  let indices := (members.filter fun m => (arrayIndex m.1).isSome).mergeSort le
  let others := members.filter fun m => (arrayIndex m.1).isNone
  have allIndices : ∀ m ∈ indices, (arrayIndex m.1).isSome := fun m member =>
    (List.mem_filter.mp (List.mem_mergeSort.mp member)).2
  have allOthers : ∀ m ∈ others, (arrayIndex m.1).isNone := fun m member =>
    (List.mem_filter.mp member).2
  have sorted : indices.Pairwise fun a b => le a b :=
    List.pairwise_mergeSort (by simp only [le]; grind) (by simp only [le]; grind) _
  have first : (indices ++ others).filter (fun m => (arrayIndex m.1).isSome) = indices := by
    rw [List.filter_append, List.filter_eq_self.mpr allIndices, List.filter_eq_nil_iff.mpr,
      List.append_nil]
    intro m member index
    rw [Option.isSome_iff_ne_none] at index
    exact index (Option.isNone_iff_eq_none.mp (allOthers m member))
  have last : (indices ++ others).filter (fun m => (arrayIndex m.1).isNone) = others := by
    rw [List.filter_append, List.filter_eq_self.mpr allOthers, List.filter_eq_nil_iff.mpr,
      List.nil_append]
    intro m member index
    have there := allIndices m member
    rw [Option.isNone_iff_eq_none.mp index] at there
    cases there
  change ((indices ++ others).filter _).mergeSort le ++ (indices ++ others).filter _ = _
  rw [first, last, List.mergeSort_of_pairwise sorted]
  rfl

/-- Which properties come first does not depend on their values. -/
theorem indexFirst_map (f : Value → Value) (members : List (Text × Value)) :
    indexFirst (members.map fun m => (m.1, f m.2)) =
      (indexFirst members).map fun m => (m.1, f m.2) := by
  unfold indexFirst
  simp only [List.filter_map, List.map_append]
  congr 1
  exact (List.map_mergeSort (f := fun m : Text × Value => (m.1, f m.2)) fun a _ b _ => rfl).symm

theorem canonicalElements_eq (elements : List Value) :
    canonicalElements elements = elements.map canonical := by
  induction elements with
  | nil => rfl
  | cons v rest ih => rw [canonicalElements, ih, List.map_cons]

theorem canonicalMembers_eq (members : List (Text × Value)) :
    canonicalMembers members = members.map fun m => (m.1, canonical m.2) := by
  induction members with
  | nil => rfl
  | cons m rest ih => rw [canonicalMembers, ih, List.map_cons]

theorem rereadElements_eq (elements : List Value) :
    rereadElements elements =
      elements.map fun v => if v = .undefined then .null else reread v := by
  induction elements with
  | nil => rfl
  | cons v rest ih => rw [rereadElements, ih, List.map_cons]

theorem rereadMembers_eq (members : List (Text × Value)) :
    rereadMembers members =
      (members.filter (·.2 ≠ .undefined)).map fun m => (m.1, reread m.2) := by
  induction members with
  | nil => rfl
  | cons m rest ih =>
    rw [rereadMembers, ih]
    by_cases absent : m.2 = .undefined
    · rw [if_pos absent, List.filter_cons_of_neg (by simpa using absent)]
    · rw [if_neg absent, List.filter_cons_of_pos (by simpa using absent), List.map_cons]

theorem keptElements_iff (elements : List Value) :
    keptElements elements ↔ ∀ v ∈ elements, v ≠ .undefined ∧ isKept v := by
  induction elements with
  | nil => simp [keptElements]
  | cons v rest ih => simp [keptElements, ih, and_assoc]

theorem keptMembers_iff (members : List (Text × Value)) :
    keptMembers members ↔ ∀ m ∈ members, m.2 ≠ .undefined ∧ isKept m.2 := by
  induction members with
  | nil => simp [keptMembers]
  | cons m rest ih => simp [keptMembers, ih, and_assoc]

theorem canonical_eq_undefined {v : Value} : canonical v = .undefined ↔ v = .undefined := by
  cases v <;> simp [canonical]

theorem reread_eq_undefined {v : Value} : reread v = .undefined ↔ v = .undefined := by
  cases v with
  | primitive p =>
    cases p with
    | number n => cases n <;> simp [reread]
    | _ => simp [reread]
  | array elements => simp [reread]
  | object members => simp [reread]

/-- What was written is kept when it is written again. -/
theorem isKept_reread (v : Value) : isKept (reread v) := by
  induction v using Value.induction with
  | primitive p =>
    cases p with
    | number n => cases n <;> rfl
    | _ => rfl
  | array elements ih =>
    rw [reread, isKept, keptElements_iff, rereadElements_eq]
    intro w member
    obtain ⟨v, inside, rfl⟩ := List.mem_map.mp member
    split
    · exact ⟨by simp, rfl⟩
    · next there => exact ⟨fun absent => there (reread_eq_undefined.mp absent), ih v inside⟩
  | object members ih =>
    rw [reread, isKept, keptMembers_iff]
    intro n member
    rw [mem_indexFirst, rereadMembers_eq] at member
    obtain ⟨m, inside, rfl⟩ := List.mem_map.mp member
    obtain ⟨inside, there⟩ := List.mem_filter.mp inside
    refine ⟨fun absent => ?_, ih m inside⟩
    simp [reread_eq_undefined.mp absent] at there

example : let v := Value.array [.undefined, .array [.null, .string (utf16 "\"é")], .boolean true]
    (stringify v).bind parse = some (reread v) := by decide +kernel

theorem canonical_reread (v : Value) : canonical (reread v) = reread v := by
  induction v using Value.induction with
  | primitive p =>
    cases p with
    | number n => cases n <;> rfl
    | _ => rfl
  | array elements ih =>
    rw [reread, canonical, canonicalElements_eq, rereadElements_eq, List.map_map]
    congr 1
    apply List.map_congr_left
    intro v inside
    rw [Function.comp_apply]
    split
    · rfl
    · exact ih v inside
  | object members ih =>
    rw [reread, canonical, canonicalMembers_eq, ← indexFirst_map, indexFirst_idem,
      rereadMembers_eq, List.map_map]
    congr 2
    apply List.map_congr_left
    intro m inside
    rw [Function.comp_apply, ih m (List.mem_filter.mp inside).1]

/-- A value that JSON keeps comes back with its properties as they are listed. -/
theorem reread_of_kept {v : Value} (kept : isKept v) : reread v = canonical v := by
  induction v using Value.induction with
  | primitive p =>
    cases p with
    | number n =>
      cases n with
      | finite => rfl
      | infinite => cases kept
    | _ => rfl
  | array elements ih =>
    rw [isKept, keptElements_iff] at kept
    rw [reread, canonical, rereadElements_eq, canonicalElements_eq]
    congr 1
    apply List.map_congr_left
    intro v inside
    rw [if_neg (kept v inside).1, ih v inside (kept v inside).2]
  | object members ih =>
    rw [isKept, keptMembers_iff] at kept
    have all : members.filter (·.2 ≠ .undefined) = members :=
      List.filter_eq_self.mpr fun m inside => by simpa using (kept m inside).1
    rw [reread, canonical, rereadMembers_eq, canonicalMembers_eq, all]
    congr 2
    apply List.map_congr_left
    intro m inside
    rw [ih m inside (kept m inside).2]

theorem isKept_canonical (v : Value) : isKept (canonical v) ↔ isKept v := by
  induction v using Value.induction with
  | primitive p => rfl
  | array elements ih =>
    rw [canonical, isKept, isKept, keptElements_iff, keptElements_iff, canonicalElements_eq,
      List.forall_mem_map]
    exact forall₂_congr fun v inside => and_congr (not_congr canonical_eq_undefined) (ih v inside)
  | object members ih =>
    rw [canonical, isKept, isKept, keptMembers_iff, keptMembers_iff]
    simp only [mem_indexFirst]
    rw [canonicalMembers_eq, List.forall_mem_map]
    exact forall₂_congr fun m inside => and_congr (not_congr canonical_eq_undefined) (ih m inside)

theorem same_reread_of_kept {v : Value} (kept : isKept v) : Same v (reread v) := by
  rw [Same, canonical_reread, reread_of_kept kept]

end Hwfa.Json
