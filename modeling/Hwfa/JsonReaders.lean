import Hwfa.JsonGrammar

/-!
The two readers of JSON over its grammar: `JSON.parse` of a text in UTF-16, and the
`encoding/json` of Go of the same text in UTF-8.

Both read whatever the grammar spells, each to its own idea of the document.  They
differ in strings, where half a pair of surrogates is a code unit here and a
replacement character there; in numbers, a double here and still the literal there; in
members of one name, where the last one stays or all do; and in the depth of nesting.
-/

namespace Hwfa.JsonReaders

open Hwfa.Json (Text isLeading isTrailing unit)
open Hwfa.GoJson (Bytes byte)
open Hwfa.JsonGrammar
open Hwfa.Lexers (Lexer Run)

/-- A text in UTF-16. -/
def encode16 (cs : List Char) : Text := cs.flatMap units

/-- A text in UTF-8. -/
def encode8 (cs : List Char) : Bytes := cs.flatMap String.utf8EncodeChar

/-! ### `JSON.parse` -/

def jsToken : Lexeme → Json.Token
  | .mark .openArray => .openArray
  | .mark .closeArray => .closeArray
  | .mark .openObject => .openObject
  | .mark .closeObject => .closeObject
  | .mark .colon => .colon
  | .mark .comma => .comma
  | .word .null => .scalar .null
  | .word (.boolean b) => .scalar (.boolean b)
  | .number literal =>
    .scalar (.number ((Json.readNumber (literal.map unit)).getD (.finite 0)))
  | .string t => .scalar (.string t)

mutual

/-- The value that `JSON.parse` makes of a document. -/
def jsValue : Document → Json.Value
  | .word .null => .null
  | .word (.boolean b) => .boolean b
  | .number literal => .number ((Json.readNumber (literal.map unit)).getD (.finite 0))
  | .string t => .string t
  | .array elements => .array (jsElements elements)
  | .object members =>
    .object ((jsMembers members).foldl (fun done m => Json.setMember done m.1 m.2) [])

def jsElements : List Document → List Json.Value
  | [] => []
  | d :: rest => jsValue d :: jsElements rest

def jsMembers : List (Text × Document) → List (Text × Json.Value)
  | [] => []
  | (k, d) :: rest => (k, jsValue d) :: jsMembers rest

end

theorem units_low {c : Char} (low : c.toNat < 0x10000) : units c = [unit c] := if_pos low

theorem toNat_unit {c : Char} (low : c.toNat < 0x10000) : (unit c).toNat = c.toNat := by
  rw [unit, UInt16.toNat_ofNat']
  omega

theorem isPlain_units {c : Char} (visible : 0x20 ≤ c.toNat) (quote_ne : c ≠ '"')
    (backslash_ne : c ≠ '\\') : ∀ u ∈ units c, JsonInterchange.IsPlain u := by
  intro u member
  have valid : c.toNat < 0xD800 ∨ 0xDFFF < c.toNat ∧ c.toNat < 0x110000 := c.valid
  by_cases low : c.toNat < 0x10000
  · rw [units_low low, List.mem_singleton] at member
    subst member
    have value := toNat_unit low
    refine ⟨fun same => quote_ne ?_, fun same => backslash_ne ?_, fun control => ?_⟩
    · apply Char.toNat_inj.mp
      rw [← value, same]
      rfl
    · apply Char.toNat_inj.mp
      rw [← value, same]
      rfl
    · rw [UInt16.lt_iff_toNat_lt, value] at control
      have space : (0x20 : UInt16).toNat = 32 := rfl
      omega
  · rw [units, if_neg low] at member
    apply JsonRoundTrip.isPlain_of_large
    rw [UInt16.le_iff_toNat_le]
    have bound : (0xD800 : UInt16).toNat = 0xD800 := rfl
    simp only [List.mem_cons, List.not_mem_nil, or_false] at member
    rcases member with rfl | rfl
    · rw [UInt16.toNat_ofNat']
      omega
    · rw [UInt16.toNat_ofNat']
      omega

theorem hexDigit_hexChar {n : Nat} (small : n < 16) :
    Json.hexDigit (unit (hexChar n)) = some n := by
  have all : ∀ n : Fin 16, Json.hexDigit (unit (hexChar n)) = some n.val := by decide
  exact all ⟨n, small⟩

theorem units_hexChar {n : Nat} (small : n < 16) : units (hexChar n) = [unit (hexChar n)] := by
  have all : ∀ n : Fin 16, units (hexChar n) = [unit (hexChar n)] := by decide
  exact all ⟨n, small⟩

/-- A digit of a code that is not the last one. -/
theorem read_hexChar {n : Nat} (small : n < 16) (done : Text) {digits : List Nat}
    (more : digits.length < 3) :
    JsonInterchange.lexer.read (.hex done digits) (unit (hexChar n)) =
      some ([], .hex done (digits ++ [n])) := by
  change Json.Lexing.read (.hex done digits) (unit (hexChar n)) = _
  rw [Json.Lexing.read]
  simp only [hexDigit_hexChar small, Option.bind_eq_bind, Option.bind_some]
  split
  · simp at more
  · rfl

theorem read_lastChar {n : Nat} (small : n < 16) (done : Text) (x y z : Nat) :
    JsonInterchange.lexer.read (.hex done [x, y, z]) (unit (hexChar n)) =
      some ([], .quoted (done ++ [UInt16.ofNat (((x * 16 + y) * 16 + z) * 16 + n)])) := by
  change Json.Lexing.read (.hex done [x, y, z]) (unit (hexChar n)) = _
  simp only [Json.Lexing.read, hexDigit_hexChar small, Option.bind_eq_bind, Option.bind_some]
  rfl

/-- What stands between the quotes is read unit by unit. -/
theorem js_run_literal {t : Text} {inside : List Char} (literal : Literal t inside) (done : Text) :
    Run JsonInterchange.lexer (.quoted done) (encode16 inside) [] (.quoted (done ++ t)) := by
  have backslash (done : Text) : JsonInterchange.lexer.read (.quoted done) (unit '\\') =
      some ([], .escaped done) := rfl
  induction literal generalizing done with
  | nil =>
    rw [List.append_nil]
    exact Run.nil _
  | plain c visible quote_ne backslash_ne _ ih =>
    rw [← List.append_assoc]
    exact (JsonInterchange.run_plain done (isPlain_units visible quote_ne backslash_ne)).append (ih _)
  | @letter t cs e u known _ ih =>
    have escaped : JsonInterchange.lexer.read (.escaped done) (unit e) =
        some ([], .quoted (done ++ [u])) ∧ units e = [unit e] := by
      simp only [escapes, List.mem_cons, Prod.mk.injEq, List.not_mem_nil, or_false] at known
      rcases known with ⟨rfl, rfl⟩ | ⟨rfl, rfl⟩ | ⟨rfl, rfl⟩ | ⟨rfl, rfl⟩ |
        ⟨rfl, rfl⟩ | ⟨rfl, rfl⟩ | ⟨rfl, rfl⟩ | ⟨rfl, rfl⟩
      all_goals exact ⟨rfl, rfl⟩
    have rest := ih (done ++ [u])
    rw [List.append_assoc] at rest
    have run := Run.cons (backslash done) (Run.cons escaped.1 rest)
    rw [encode16, List.flatMap_cons, List.flatMap_cons, escaped.2]
    exact run
  | @code t cs u w x y z small number _ ih =>
    obtain ⟨w_small, x_small, y_small, z_small⟩ := small
    have begun : JsonInterchange.lexer.read (.escaped done) (unit 'u') =
        some ([], .hex done []) := rfl
    have last := read_lastChar z_small done w x y
    rw [number, UInt16.ofNat_toNat] at last
    have rest := ih (done ++ [u])
    rw [List.append_assoc] at rest
    have run := Run.cons (backslash done) (Run.cons begun
      (Run.cons (read_hexChar w_small done (by simp)) (Run.cons (read_hexChar x_small done (by simp))
        (Run.cons (read_hexChar y_small done (by simp)) (Run.cons last rest)))))
    simp only [encode16, List.flatMap_cons, units_hexChar w_small, units_hexChar x_small,
      units_hexChar y_small, units_hexChar z_small]
    exact run

theorem js_ends {rest : List Char} (ends : Ends rest) : JsonRoundTrip.Ends (encode16 rest) := by
  cases rest with
  | nil =>
    intro u member
    cases member
  | cons c more =>
    intro u member
    have here := ends c rfl
    rcases here with (rfl | rfl | rfl | rfl) | ⟨m, rfl⟩
    · cases member; exact ⟨rfl, rfl⟩
    · cases member; exact ⟨rfl, rfl⟩
    · cases member; exact ⟨rfl, rfl⟩
    · cases member; exact ⟨rfl, rfl⟩
    · cases m <;> cases member <;> exact ⟨rfl, rfl⟩

theorem low_of_numeral {c : Char} (numeral : IsNumeral c) : c.toNat < 128 := by
  rcases numeral with digit | mark
  · have range := Doubles.digit_range digit
    omega
  · simp only [List.mem_cons, List.not_mem_nil, or_false] at mark
    rcases mark with rfl | rfl | rfl | rfl | rfl <;> decide

theorem inNumeral_of_isNumeral {c : Char} (numeral : IsNumeral c) : Json.inNumeral (unit c) := by
  rcases numeral with digit | mark
  · exact JsonInterchange.inNumeral_unit (.inr digit)
  · simp only [List.mem_cons, List.not_mem_nil, or_false] at mark
    rcases mark with rfl | rfl | rfl | rfl | rfl <;> rfl

theorem encode16_low {cs : List Char} (low : ∀ c ∈ cs, c.toNat < 128) :
    encode16 cs = cs.map unit := by
  induction cs with
  | nil => rfl
  | cons c rest ih =>
    rw [List.forall_mem_cons] at low
    rw [encode16, List.flatMap_cons, units_low (by omega), List.map_cons]
    exact congrArg (unit c :: ·) (ih low.2)

theorem js_run_number {literal : List Char} (is_literal : IsLiteral literal) :
    Run JsonInterchange.lexer .between (literal.map unit) [] (.numeral (literal.map unit)) := by
  obtain ⟨c, more, rfl, first⟩ := is_literal.begins
  have others := (List.forall_mem_cons.mp is_literal.numeral).2
  rw [List.map_cons]
  apply JsonRoundTrip.run_numeral
  · rcases first with rfl | digit
    · exact .inl rfl
    · exact .inr (Doubles.isDigit_unit digit)
  · intro v member
    obtain ⟨d, inside, rfl⟩ := List.mem_map.mp member
    exact inNumeral_of_isNumeral (others d inside)

theorem js_understands : Understands JsonInterchange.lexer .between units jsToken where
  space blank := by
    rcases blank with rfl | rfl | rfl | rfl <;> exact Run.one rfl
  mark m := by
    cases m <;> exact Run.one rfl
  string {t inside} literal := by
    have opened : JsonInterchange.lexer.read .between (unit '"') = some ([], .quoted []) := rfl
    have closed : JsonInterchange.lexer.read (.quoted t) (unit '"') =
        some ([.scalar (.string t)], .between) := rfl
    exact Run.cons opened ((js_run_literal literal []).append (Run.one closed))
  word w {rest} ends := by
    have reads : JsonRoundTrip.Reads (encode16 w.chars) [jsToken (.word w)] := by
      cases w with
      | null => exact JsonRoundTrip.reads_word (JsonRoundTrip.run_word (u := unit 'n') rfl rfl) rfl
      | boolean b =>
        cases b with
        | true =>
          exact JsonRoundTrip.reads_word (JsonRoundTrip.run_word (u := unit 't') rfl rfl) rfl
        | false =>
          exact JsonRoundTrip.reads_word (JsonRoundTrip.run_word (u := unit 'f') rfl rfl) rfl
    exact reads _ (js_ends ends)
  number {literal rest} is_literal ends := by
    obtain ⟨n, number⟩ := Option.isSome_iff_exists.mp is_literal.reads
    have reads := JsonRoundTrip.reads_numeral (js_run_number is_literal) number
    have low := encode16_low fun c member => low_of_numeral (is_literal.numeral c member)
    have token : jsToken (.number literal) = .scalar (.number n) := by
      rw [jsToken, number]
      rfl
    change JsonInterchange.lexer.lex .between (encode16 literal ++ encode16 rest) = _
    rw [token, low]
    exact reads _ (js_ends ends)
  finish := rfl

theorem jsElements_eq (elements : List Document) : jsElements elements = elements.map jsValue := by
  induction elements with
  | nil => rfl
  | cons d rest ih => rw [jsElements, ih, List.map_cons]

theorem jsMembers_eq (members : List (Text × Document)) :
    jsMembers members = members.map fun m => (m.1, jsValue m.2) := by
  induction members with
  | nil => rfl
  | cons m rest ih => rw [jsMembers, ih, List.map_cons]

open JsonRoundTrip (Parses)

/-- The elements behind one that has been read, and the bracket. -/
theorem js_elements {rest : List Document}
    (each : ∀ d ∈ rest, Parses (d.lexemes.map jsToken) (jsValue d)) (done : List Json.Value)
    (stack : List Json.Frame) (v : Json.Value) (more : List Json.Token) :
    (((rest.map Document.lexemes).flatMap (.mark .comma :: ·)).map jsToken ++
      .closeArray :: more).foldlM Json.Expecting.step (.separator (.array done :: stack) v) =
      more.foldlM Json.Expecting.step (.separator stack (.array (done ++ v :: rest.map jsValue))) := by
  induction rest generalizing done v with
  | nil => rfl
  | cons d rest ih =>
    rw [List.forall_mem_cons] at each
    have behind := ih each.2 (done ++ [v]) (jsValue d)
    rw [List.append_assoc] at behind
    rw [List.map_cons, List.flatMap_cons, List.map_append, List.map_cons, List.append_assoc,
      List.cons_append, List.foldlM_cons]
    exact (each.1 _ _).trans behind

theorem js_members {rest : List (Text × Document)}
    (each : ∀ m ∈ rest, Parses (m.2.lexemes.map jsToken) (jsValue m.2)) (done : List (Text × Json.Value))
    (name : Text) (stack : List Json.Frame) (v : Json.Value) (more : List Json.Token) :
    (((rest.map fun m => .string m.1 :: .mark .colon :: m.2.lexemes).flatMap
        (.mark .comma :: ·)).map jsToken ++ .closeObject :: more).foldlM Json.Expecting.step
      (.separator (.object done name :: stack) v) =
      more.foldlM Json.Expecting.step (.separator stack (.object
        ((rest.map fun m => (m.1, jsValue m.2)).foldl (fun done m => Json.setMember done m.1 m.2)
          (Json.setMember done name v)))) := by
  induction rest generalizing done name v with
  | nil => rfl
  | cons m rest ih =>
    rw [List.forall_mem_cons] at each
    have behind := ih each.2 (Json.setMember done name v) m.1 (jsValue m.2)
    simp only [List.map_cons, List.flatMap_cons, List.map_append, List.append_assoc,
      List.cons_append, List.foldlM_cons]
    exact (each.1 _ _).trans behind

theorem js_parses (d : Document) : Parses (d.lexemes.map jsToken) (jsValue d) := by
  induction d using Document.induction with
  | word w =>
    intro stack more
    cases w <;> rfl
  | number literal => exact fun stack more => rfl
  | string t => exact fun stack more => rfl
  | array elements ih =>
    intro stack more
    rw [Document.lexemes, elementLexemes_eq, jsValue, jsElements_eq]
    cases elements with
    | nil => rfl
    | cons d rest =>
      rw [List.forall_mem_cons] at ih
      have behind := js_elements ih.2 [] stack (jsValue d) more
      have first := JsonRoundTrip.head_ne_closeArray (ih.1 [] [])
      obtain ⟨token, tokens, split⟩ : ∃ token tokens, d.lexemes.map jsToken = token :: tokens := by
        cases written : d.lexemes.map jsToken with
        | nil =>
          have parsed := ih.1 [] []
          rw [written] at parsed
          cases parsed
        | cons token tokens => exact ⟨token, tokens, rfl⟩
      rw [List.append_nil, split] at first
      have opens : token ≠ .closeArray := fun same => first (by rw [same]; rfl)
      simp only [List.map_cons, separated, List.map_append, List.map_nil, List.append_assoc,
        List.cons_append, List.nil_append, List.foldlM_cons]
      refine Eq.trans ?_ ((ih.1 _ _).trans behind)
      apply JsonRoundTrip.elementOrClose_eq _ opens
      rw [split]
      rfl
  | object members ih =>
    intro stack more
    rw [Document.lexemes, memberLexemes_eq, jsValue, jsMembers_eq]
    cases members with
    | nil => rfl
    | cons m rest =>
      rw [List.forall_mem_cons] at ih
      have behind := js_members ih.2 [] m.1 stack (jsValue m.2) more
      simp only [List.map_cons, separated, List.map_append, List.map_nil, List.append_assoc,
        List.cons_append, List.nil_append, List.foldlM_cons]
      exact (ih.1 _ _).trans behind

/-- `JSON.parse` reads every text of a document to its value. -/
theorem json_parse {d : Document} {cs : List Char} (writes : Writes d cs) :
    Json.parse (encode16 cs) = some (jsValue d) := by
  have lexed : Json.lex .between (encode16 cs) = some (d.lexemes.map jsToken) := by
    rw [JsonInterchange.lex_eq]
    exact js_understands.lex_spells writes
  have parsed := js_parses d [] []
  rw [List.append_nil] at parsed
  rw [Json.parse, lexed]
  simp only [Option.bind_eq_bind, Option.bind_some, parsed]
  rfl

/-! ### `encoding/json` -/

/-- Half a pair that stands alone is replaced. -/
def loneScalar (u : UInt16) : Char :=
  if isLeading u ∨ isTrailing u then GoJson.replacement else Char.ofNat u.toNat

/-- The characters of a text. -/
def scalars : Text → List Char
  | [] => []
  | [u] => [loneScalar u]
  | u :: v :: rest =>
    if isLeading u ∧ isTrailing v then
      Char.ofNat (0x10000 + (u.toNat - 0xD800) * 0x400 + (v.toNat - 0xDC00)) :: scalars rest
    else loneScalar u :: scalars (v :: rest)

/-- The string of a text. -/
def goString (t : Text) : String := String.ofList (scalars t)

def goToken : Lexeme → GoJson.Token
  | .mark .openArray => .openArray
  | .mark .closeArray => .closeArray
  | .mark .openObject => .openObject
  | .mark .closeObject => .closeObject
  | .mark .colon => .colon
  | .mark .comma => .comma
  | .word .null => .scalar .null
  | .word (.boolean b) => .scalar (.boolean b)
  | .number literal => .scalar (.number (GoJson.ascii literal))
  | .string t => .scalar (.string (goString t))

mutual

/-- The value that `encoding/json` makes of a document. -/
def goValue : Document → GoJson.Value
  | .word .null => .scalar .null
  | .word (.boolean b) => .scalar (.boolean b)
  | .number literal => .scalar (.number (GoJson.ascii literal))
  | .string t => .scalar (.string (goString t))
  | .array elements => .array (goElements elements)
  | .object members => .object (goMembers members)

def goElements : List Document → List GoJson.Value
  | [] => []
  | d :: rest => goValue d :: goElements rest

def goMembers : List (Text × Document) → List (String × GoJson.Value)
  | [] => []
  | (k, d) :: rest => (goString k, goValue d) :: goMembers rest

end

theorem isLeading_iff {u : UInt16} : isLeading u = true ↔ 0xD800 ≤ u.toNat ∧ u.toNat < 0xDC00 := by
  rw [isLeading, Bool.and_eq_true, decide_eq_true_eq, decide_eq_true_eq, UInt16.le_iff_toNat_le,
    UInt16.lt_iff_toNat_lt]
  rfl

theorem isTrailing_iff {u : UInt16} : isTrailing u = true ↔ 0xDC00 ≤ u.toNat ∧ u.toNat < 0xE000 := by
  rw [isTrailing, Bool.and_eq_true, decide_eq_true_eq, decide_eq_true_eq, UInt16.le_iff_toNat_le,
    UInt16.lt_iff_toNat_lt]
  rfl

/-- A unit that no other completes. -/
theorem scalars_cons {u : UInt16} {t : Text}
    (alone : ∀ v ∈ t.head?, ¬(isLeading u = true ∧ isTrailing v = true)) :
    scalars (u :: t) = loneScalar u :: scalars t := by
  cases t with
  | nil => rfl
  | cons v rest => rw [scalars, if_neg (alone v rfl)]

theorem scalars_pair {u v : UInt16} (leads : isLeading u = true) (trails : isTrailing v = true)
    (rest : Text) : scalars (u :: v :: rest) =
      Char.ofNat (0x10000 + (u.toNat - 0xD800) * 0x400 + (v.toNat - 0xDC00)) :: scalars rest := by
  rw [scalars, if_pos ⟨leads, trails⟩]

theorem scalars_units (c : Char) (t : Text) : scalars (units c ++ t) = c :: scalars t := by
  have valid : c.toNat < 0xD800 ∨ 0xDFFF < c.toNat ∧ c.toNat < 0x110000 := c.valid
  by_cases low : c.toNat < 0x10000
  · have value := toNat_unit low
    have not_leading : ¬isLeading (unit c) = true := by
      rw [isLeading_iff, value]
      omega
    have not_trailing : ¬isTrailing (unit c) = true := by
      rw [isTrailing_iff, value]
      omega
    rw [units_low low, List.singleton_append, scalars_cons fun v _ pair => not_leading pair.1,
      loneScalar, if_neg (by rw [not_or]; exact ⟨not_leading, not_trailing⟩), value,
      Char.ofNat_toNat]
  · have first : (UInt16.ofNat (0xD800 + (c.toNat - 0x10000) / 0x400)).toNat =
        0xD800 + (c.toNat - 0x10000) / 0x400 := by
      rw [UInt16.toNat_ofNat']
      omega
    have second : (UInt16.ofNat (0xDC00 + (c.toNat - 0x10000) % 0x400)).toNat =
        0xDC00 + (c.toNat - 0x10000) % 0x400 := by
      rw [UInt16.toNat_ofNat']
      omega
    have number : 0x10000 + (0xD800 + (c.toNat - 0x10000) / 0x400 - 0xD800) * 0x400 +
        (0xDC00 + (c.toNat - 0x10000) % 0x400 - 0xDC00) = c.toNat := by omega
    rw [units, if_neg low]
    change scalars (_ :: _ :: t) = _
    rw [scalars_pair (isLeading_iff.mpr (by omega)) (isTrailing_iff.mpr (by omega)), first, second,
      number, Char.ofNat_toNat]

/-- What was encoded is decoded. -/
theorem scalars_encode16 (cs : List Char) : scalars (encode16 cs) = cs := by
  induction cs with
  | nil => rfl
  | cons c rest ih =>
    rw [encode16, List.flatMap_cons, scalars_units]
    exact congrArg (c :: ·) ih

theorem goString_utf16 (s : String) : goString (Json.utf16 s) = s := by
  have units : Json.utf16 s = encode16 s.toList := by
    conv => lhs; rw [← String.ofList_toList (s := s)]
    exact utf16_eq s.toList
  rw [units, goString, scalars_encode16, String.ofList_toList]

theorem utf8_hexChar {n : Nat} (small : n < 16) :
    String.utf8EncodeChar (hexChar n) = [GoJson.hexDigit n] := by
  have all : ∀ n : Fin 16, String.utf8EncodeChar (hexChar n) = [GoJson.hexDigit n] := by decide
  exact all ⟨n, small⟩

theorem plain_bytes {c : Char} (visible : 0x20 ≤ c.toNat) (quote_ne : c ≠ '"')
    (backslash_ne : c ≠ '\\') : ∀ b ∈ String.utf8EncodeChar c, GoJson.IsPlain b := by
  intro b member
  have value := GoJson.mem_utf8EncodeChar member
  have quote : c.toNat ≠ 34 := fun same => quote_ne (Char.toNat_inj.mp same)
  have backslash : c.toNat ≠ 92 := fun same => backslash_ne (Char.toNat_inj.mp same)
  refine ⟨?_, ?_, ?_⟩
  · rintro rfl
    have number : (byte '"').toNat = 34 := rfl
    omega
  · rintro rfl
    have number : (byte '\\').toNat = 92 := rfl
    omega
  · rw [UInt8.lt_iff_toNat_lt]
    have number : (0x20 : UInt8).toNat = 32 := rfl
    omega

theorem letter_bytes {e : Char} {u : UInt16} (known : (e, u) ∈ escapes) :
    String.utf8EncodeChar e = [byte e] ∧ byte e ∈ GoJson.escapeLetters ∧
      GoJson.unescape (byte e) = loneScalar u ∧ ¬isLeading u = true ∧ ¬isTrailing u = true := by
  simp only [escapes, List.mem_cons, Prod.mk.injEq, List.not_mem_nil, or_false] at known
  rcases known with ⟨rfl, rfl⟩ | ⟨rfl, rfl⟩ | ⟨rfl, rfl⟩ | ⟨rfl, rfl⟩ |
    ⟨rfl, rfl⟩ | ⟨rfl, rfl⟩ | ⟨rfl, rfl⟩ | ⟨rfl, rfl⟩
  all_goals exact ⟨by decide, by decide, by decide, by decide, by decide⟩

/-- The bytes of an escape by code. -/
def codeBytes (w x y z : Nat) : Bytes :=
  [byte '\\', byte 'u', GoJson.hexDigit w, GoJson.hexDigit x, GoJson.hexDigit y, GoJson.hexDigit z]

theorem getu4_codeBytes {w x y z : Nat} (small : w < 16 ∧ x < 16 ∧ y < 16 ∧ z < 16) {u : UInt16}
    (number : ((w * 16 + x) * 16 + y) * 16 + z = u.toNat) (rest : Bytes) :
    GoJson.getu4 (codeBytes w x y z ++ rest) = some u.toNat := by
  rw [← number]
  exact GoJson.getu4_code small rest

theorem encode8_code {w x y z : Nat} (small : w < 16 ∧ x < 16 ∧ y < 16 ∧ z < 16) (cs : List Char) :
    encode8 ('\\' :: 'u' :: hexChar w :: hexChar x :: hexChar y :: hexChar z :: cs) =
      codeBytes w x y z ++ encode8 cs := by
  simp only [encode8, List.flatMap_cons, utf8_hexChar small.1, utf8_hexChar small.2.1,
    utf8_hexChar small.2.2.1, utf8_hexChar small.2.2.2]
  rfl

theorem encode8_letter {e : Char} {u : UInt16} (known : (e, u) ∈ escapes) (cs : List Char) :
    encode8 ('\\' :: e :: cs) = [byte '\\', byte e] ++ encode8 cs := by
  rw [encode8, List.flatMap_cons, List.flatMap_cons, (letter_bytes known).1]
  rfl

theorem encode8_cons (c : Char) (cs : List Char) :
    encode8 (c :: cs) = String.utf8EncodeChar c ++ encode8 cs := List.flatMap_cons

/-- The scanner goes over what stands between the quotes. -/
theorem go_run_literal {t : Text} {inside : List Char} (literal : Literal t inside) (raw : Bytes) :
    Run GoJson.lexer (.quoted raw) (encode8 inside) [] (.quoted (raw ++ encode8 inside)) := by
  induction literal generalizing raw with
  | nil =>
    rw [encode8, List.flatMap_nil, List.append_nil]
    exact Run.nil _
  | plain c visible quote_ne backslash_ne _ ih =>
    rw [encode8_cons, ← List.append_assoc]
    exact (GoJson.run_plain (plain_bytes visible quote_ne backslash_ne)).append (ih _)
  | letter known _ ih =>
    obtain ⟨_, letter, _⟩ := letter_bytes known
    rw [encode8_letter known, ← List.append_assoc]
    exact (GoJson.run_escaped raw (.letter _ letter rfl)).append (ih _)
  | @code t cs u w x y z small number _ ih =>
    have digits := GoJson.run_code small (raw ++ [byte '\\'] ++ [byte 'u'])
    rw [List.append_assoc, List.append_assoc] at digits
    have second : GoJson.lexer.read (.escaped (raw ++ [byte '\\'])) (byte 'u') =
        some ([], .hex (raw ++ [byte '\\'] ++ [byte 'u']) 0) := rfl
    rw [List.append_assoc] at second
    have run := Run.cons (GoJson.read_backslash raw) (Run.cons second digits)
    rw [encode8_code small, ← List.append_assoc]
    exact run.append (ih _)

theorem getu4_of_head {s : Bytes} (head : ∀ b ∈ s.head?, b ≠ byte '\\') : GoJson.getu4 s = none := by
  unfold GoJson.getu4
  split
  · next a u w x y z rest =>
    exact if_neg fun begun => head a rfl begun.1
  · rfl

/-- What does not begin with the escape of a trailing half completes no leading one. -/
theorem decodePair_none {t : Text} {inside : List Char} (literal : Literal t inside) {rr : Nat}
    (alone : ∀ v ∈ t.head?, ¬(0xD800 ≤ rr ∧ rr < 0xDC00 ∧ isTrailing v = true)) :
    (GoJson.getu4 (encode8 inside)).bind (GoJson.decodePair rr) = none := by
  cases literal with
  | nil => rfl
  | plain c visible quote_ne backslash_ne rest =>
    rw [getu4_of_head]
    · rfl
    · intro b member
      apply (plain_bytes visible quote_ne backslash_ne b _).2.1
      rw [encode8_cons] at member
      apply List.mem_of_mem_head?
      rw [List.head?_append] at member
      cases first : (String.utf8EncodeChar c).head? with
      | none =>
        have empty := congrArg List.length (List.head?_eq_none_iff.mp first)
        have positive := c.utf8Size_pos
        rw [String.length_utf8EncodeChar, List.length_nil] at empty
        omega
      | some d =>
        rw [first] at member
        exact member
  | letter known rest =>
    rw [encode8_letter known, List.cons_append, List.singleton_append,
      GoJson.getu4_letter (letter_bytes known).2.1]
    rfl
  | @code _ _ u w x y z small number rest =>
    have single := alone u rfl
    rw [isTrailing_iff] at single
    rw [encode8_code small, getu4_codeBytes small number]
    exact if_neg fun pair => single ⟨pair.1, pair.2.1, pair.2.2⟩

theorem head_of_getu4 {s : Bytes} {rr : Nat} (code : GoJson.getu4 s = some rr) :
    ∃ rest, s = byte '\\' :: rest := by
  cases s with
  | nil => cases code
  | cons b rest =>
    by_cases backslash : b = byte '\\'
    · exact ⟨rest, congrArg (· :: rest) backslash⟩
    · rw [getu4_of_head] at code
      · cases code
      · intro c member
        cases member
        exact backslash

theorem unquoteOne_single {s : Bytes} {rr : Nat} (code : GoJson.getu4 s = some rr)
    (whole : ¬(0xD800 ≤ rr ∧ rr < 0xE000)) :
    GoJson.unquoteOne s = some (Char.ofNat rr, s.drop 6) := by
  obtain ⟨rest, rfl⟩ := head_of_getu4 code
  simp only [GoJson.unquoteOne, if_true, code, if_neg whole]

theorem unquoteOne_surrogate {s : Bytes} {rr : Nat} (code : GoJson.getu4 s = some rr)
    (half : 0xD800 ≤ rr ∧ rr < 0xE000) : GoJson.unquoteOne s =
      ((((GoJson.getu4 (s.drop 6)).bind (GoJson.decodePair rr)).map fun c => (c, s.drop 12)).getD
        (GoJson.replacement, s.drop 6)) := by
  obtain ⟨rest, rfl⟩ := head_of_getu4 code
  simp only [GoJson.unquoteOne, if_true, code, if_pos half]
  cases (GoJson.getu4 ((byte '\\' :: rest).drop 6)).bind (GoJson.decodePair rr) <;> rfl

/-- The code of a half that nothing completes. -/
theorem unquoteOne_lone {t : Text} {inside : List Char} (literal : Literal t inside) {u : UInt16}
    {w x y z : Nat} (small : w < 16 ∧ x < 16 ∧ y < 16 ∧ z < 16)
    (number : ((w * 16 + x) * 16 + y) * 16 + z = u.toNat)
    (alone : ∀ v ∈ t.head?, ¬(isLeading u = true ∧ isTrailing v = true)) :
    GoJson.unquoteOne (codeBytes w x y z ++ encode8 inside) = some (loneScalar u, encode8 inside) := by
  have code := getu4_codeBytes small number (encode8 inside)
  have behind : (codeBytes w x y z ++ encode8 inside).drop 6 = encode8 inside := rfl
  by_cases half : isLeading u = true ∨ isTrailing u = true
  · have range : 0xD800 ≤ u.toNat ∧ u.toNat < 0xE000 := by
      rw [isLeading_iff, isTrailing_iff] at half
      omega
    have nothing : (GoJson.getu4 (encode8 inside)).bind (GoJson.decodePair u.toNat) = none := by
      apply decodePair_none literal
      intro v member pair
      exact alone v member ⟨isLeading_iff.mpr ⟨pair.1, pair.2.1⟩, pair.2.2⟩
    rw [unquoteOne_surrogate code range, behind, nothing, loneScalar, if_pos half]
    rfl
  · have range : ¬(0xD800 ≤ u.toNat ∧ u.toNat < 0xE000) := by
      rw [isLeading_iff, isTrailing_iff] at half
      omega
    rw [unquoteOne_single code range, behind, loneScalar, if_neg half]

theorem unquoteOne_pair {u v : UInt16} (leads : isLeading u = true) (trails : isTrailing v = true)
    {a b c d w x y z : Nat} (small : a < 16 ∧ b < 16 ∧ c < 16 ∧ d < 16)
    (number : ((a * 16 + b) * 16 + c) * 16 + d = u.toNat)
    (small' : w < 16 ∧ x < 16 ∧ y < 16 ∧ z < 16)
    (number' : ((w * 16 + x) * 16 + y) * 16 + z = v.toNat) (rest : Bytes) :
    GoJson.unquoteOne (codeBytes a b c d ++ (codeBytes w x y z ++ rest)) =
      some (Char.ofNat (0x10000 + (u.toNat - 0xD800) * 0x400 + (v.toNat - 0xDC00)), rest) := by
  have code := getu4_codeBytes small number (codeBytes w x y z ++ rest)
  have code' := getu4_codeBytes small' number' rest
  rw [isLeading_iff] at leads
  rw [isTrailing_iff] at trails
  have pair : GoJson.decodePair u.toNat v.toNat =
      some (Char.ofNat (0x10000 + (u.toNat - 0xD800) * 0x400 + (v.toNat - 0xDC00))) :=
    if_pos ⟨leads.1, leads.2, trails.1, trails.2⟩
  have behind : (codeBytes a b c d ++ (codeBytes w x y z ++ rest)).drop 6 =
      codeBytes w x y z ++ rest := rfl
  have both : (codeBytes a b c d ++ (codeBytes w x y z ++ rest)).drop 12 = rest := rfl
  rw [unquoteOne_surrogate code (by omega), behind, both, code', Option.bind_some, pair]
  rfl

theorem length_pos_utf8 (c : Char) : 0 < (String.utf8EncodeChar c).length := by
  rw [String.length_utf8EncodeChar]
  exact c.utf8Size_pos

/-- Character by character, what stands between the quotes is the characters of its
text.  An escaped pair takes two steps of the literal and one of the reader. -/
theorem unquoteFrom_literal (fuel : Nat) : ∀ {t : Text} {inside : List Char}, Literal t inside →
    (encode8 inside).length ≤ fuel → GoJson.unquoteFrom fuel (encode8 inside) = scalars t := by
  induction fuel with
  | zero =>
    intro t inside literal short
    cases literal with
    | nil => rfl
    | plain c visible quote_ne backslash_ne rest =>
      have positive := length_pos_utf8 c
      rw [encode8_cons, List.length_append] at short
      omega
    | letter known rest =>
      rw [encode8_letter known] at short
      simp at short
    | code w x y z small number rest =>
      rw [encode8_code small] at short
      simp [codeBytes] at short
  | succ fuel ih =>
    intro t inside literal short
    cases literal with
    | nil => rfl
    | plain c visible quote_ne backslash_ne rest =>
      have positive := length_pos_utf8 c
      have plain : GoJson.Escaped c (String.utf8EncodeChar c) :=
        .plain (plain_bytes visible quote_ne backslash_ne)
      rw [encode8_cons, List.length_append] at short
      rw [encode8_cons, GoJson.unquoteFrom, GoJson.unquoteOne_escaped plain, scalars_units]
      exact congrArg (c :: ·) (ih rest (by omega))
    | @letter t cs e u known rest =>
      obtain ⟨_, letter, meaning, not_leading, _⟩ := letter_bytes known
      rw [encode8_letter known, List.length_append, List.length_cons, List.length_singleton] at short
      rw [encode8_letter known, GoJson.unquoteFrom,
        GoJson.unquoteOne_escaped (.letter _ letter meaning),
        scalars_cons fun v _ pair => not_leading pair.1]
      exact congrArg (loneScalar u :: ·) (ih rest (by omega))
    | @code t cs u w x y z small number rest =>
      have size : (codeBytes w x y z).length = 6 := rfl
      rw [encode8_code small, List.length_append, size] at short
      rw [encode8_code small]
      by_cases pair : ∃ v ∈ t.head?, isLeading u = true ∧ isTrailing v = true
      · obtain ⟨v, first, leads, trails⟩ := pair
        cases rest with
        | nil => cases first
        | plain c visible quote_ne backslash_ne rest =>
          exfalso
          have valid : c.toNat < 0xD800 ∨ 0xDFFF < c.toNat ∧ c.toNat < 0x110000 := c.valid
          rw [isTrailing_iff] at trails
          by_cases low : c.toNat < 0x10000
          · rw [units_low low] at first
            cases first
            rw [toNat_unit low] at trails
            omega
          · rw [units, if_neg low] at first
            cases first
            rw [UInt16.toNat_ofNat'] at trails
            omega
        | letter known rest =>
          cases first
          exact absurd trails (letter_bytes known).2.2.2.2
        | @code t cs v' w' x' y' z' small' number' rest =>
          cases first
          have size' : (codeBytes w' x' y' z').length = 6 := rfl
          rw [encode8_code small', List.length_append, size'] at short
          rw [encode8_code small', GoJson.unquoteFrom,
            unquoteOne_pair leads trails small number small' number', scalars_pair leads trails]
          have behind := ih rest (by omega)
          simp only [behind]
      · have alone : ∀ v ∈ t.head?, ¬(isLeading u = true ∧ isTrailing v = true) :=
          fun v first both => pair ⟨v, first, both⟩
        rw [GoJson.unquoteFrom, unquoteOne_lone rest small number alone, scalars_cons alone]
        exact congrArg (loneScalar u :: ·) (ih rest (by omega))

theorem unquote_literal {t : Text} {inside : List Char} (literal : Literal t inside) :
    GoJson.unquote (encode8 inside) = goString t := by
  rw [GoJson.unquote, unquoteFrom_literal _ literal (Nat.le_refl _), goString]

theorem go_ends {rest : List Char} (ends : Ends rest) : ∀ b ∈ (encode8 rest).head?,
    GoJson.isLower b = false ∧ GoJson.inNumeral b = false := by
  cases rest with
  | nil =>
    intro b member
    cases member
  | cons c more =>
    intro b member
    rcases ends c rfl with (rfl | rfl | rfl | rfl) | ⟨m, rfl⟩
    · cases member; exact ⟨rfl, rfl⟩
    · cases member; exact ⟨rfl, rfl⟩
    · cases member; exact ⟨rfl, rfl⟩
    · cases member; exact ⟨rfl, rfl⟩
    · cases m <;> cases member <;> exact ⟨rfl, rfl⟩

theorem utf8_low {c : Char} (low : c.toNat < 128) : String.utf8EncodeChar c = [byte c] := by
  have first : c.val.toNat ≤ 127 := Nat.le_of_lt_succ low
  unfold String.utf8EncodeChar
  simp only [if_pos first]
  rfl

theorem encode8_low {cs : List Char} (low : ∀ c ∈ cs, c.toNat < 128) :
    encode8 cs = GoJson.ascii cs := by
  induction cs with
  | nil => rfl
  | cons c rest ih =>
    rw [List.forall_mem_cons] at low
    rw [encode8_cons, utf8_low low.1, ih low.2]
    rfl

theorem go_inNumeral {c : Char} (numeral : IsNumeral c) : GoJson.inNumeral (byte c) = true := by
  rcases numeral with digit | mark
  · exact GoJson.inNumeral_byte (.inr digit)
  · simp only [List.mem_cons, List.not_mem_nil, or_false] at mark
    rcases mark with rfl | rfl | rfl | rfl | rfl <;> rfl

theorem go_run_number {literal : List Char} (is_literal : IsLiteral literal) :
    Run GoJson.lexer .between (GoJson.ascii literal) [] (.numeral (GoJson.ascii literal)) := by
  obtain ⟨c, more, rfl, first⟩ := is_literal.begins
  have others := (List.forall_mem_cons.mp is_literal.numeral).2
  rw [GoJson.ascii, List.map_cons]
  apply Run.begins (GoJson.beginToken_byte first)
  intro seen b member
  obtain ⟨d, inside, rfl⟩ := List.mem_map.mp member
  exact if_pos (go_inNumeral (others d inside))

theorem go_run_word (w : Word) :
    Run GoJson.lexer .between (encode8 w.chars) [] (.word (encode8 w.chars)) := by
  have letters {b : UInt8} {more : Bytes} (begun : GoJson.lexer.read .between b =
      some ([], .word [b])) (lower : more.all GoJson.isLower) :
      Run GoJson.lexer .between (b :: more) [] (.word (b :: more)) :=
    Run.begins begun fun _ c member => if_pos (List.all_eq_true.mp lower c member)
  cases w with
  | null => exact letters (b := byte 'n') rfl rfl
  | boolean b =>
    cases b with
    | true => exact letters (b := byte 't') rfl rfl
    | false => exact letters (b := byte 'f') rfl rfl

theorem go_word (w : Word) {rest : List Char} (ends : Ends rest) :
    GoJson.lexer.lex .between (encode8 w.chars ++ encode8 rest) =
      (GoJson.lexer.lex .between (encode8 rest)).map (goToken (.word w) :: ·) := by
  have finished : GoJson.lexer.finish (.word (encode8 w.chars)) = some [goToken (.word w)] := by
    cases w with
    | null => rfl
    | boolean b => cases b <;> rfl
  rw [go_run_word w, Lexers.lex_finished .between rfl finished, Option.map_map]
  · rfl
  · intro b member
    change GoJson.Lexing.finish (.word (encode8 w.chars)) = _ at finished
    change GoJson.Lexing.read (.word (encode8 w.chars)) b = (GoJson.Lexing.read .between b).map _
    rw [GoJson.Lexing.read, GoJson.Lexing.read, if_neg (by rw [(go_ends ends b member).1]; decide),
      finished]
    cases GoJson.beginToken b <;> rfl

theorem go_number {literal rest : List Char} (is_literal : IsLiteral literal) (ends : Ends rest) :
    GoJson.lexer.lex .between (encode8 literal ++ encode8 rest) =
      (GoJson.lexer.lex .between (encode8 rest)).map (goToken (.number literal) :: ·) := by
  have low (c : Char) (member : c ∈ literal) : c.toNat < 128 :=
    low_of_numeral (is_literal.numeral c member)
  have number : GoJson.isNumber (GoJson.ascii literal) = true := by
    rw [GoJson.isNumber, GoJson.latin1_ascii low]
    exact is_literal.reads
  have finished : GoJson.Lexing.finish (.numeral (GoJson.ascii literal)) =
      some [goToken (.number literal)] := if_pos number
  rw [encode8_low low, go_run_number is_literal,
    Lexers.lex_finished .between rfl finished, Option.map_map]
  · rfl
  · intro b member
    change GoJson.Lexing.read (.numeral (GoJson.ascii literal)) b =
      (GoJson.Lexing.read .between b).map _
    rw [GoJson.Lexing.read, GoJson.Lexing.read, if_neg (by rw [(go_ends ends b member).2]; decide),
      finished]
    cases GoJson.beginToken b <;> rfl

theorem go_understands :
    Understands GoJson.lexer .between String.utf8EncodeChar goToken where
  space blank := by
    rcases blank with rfl | rfl | rfl | rfl <;> exact Run.one rfl
  mark m := by
    cases m <;> exact Run.one rfl
  string {t inside} literal := by
    have opened : GoJson.lexer.read .between (byte '"') = some ([], .quoted []) := rfl
    have closed : GoJson.lexer.read (.quoted (encode8 inside)) (byte '"') =
        some ([.scalar (.string (goString t))], .between) := by
      change some ([GoJson.Token.scalar (.string (GoJson.unquote (encode8 inside)))], _) = _
      rw [unquote_literal literal]
    exact Run.cons opened ((go_run_literal literal []).append (Run.one closed))
  word := go_word
  number := go_number
  finish := rfl

theorem goElements_eq (elements : List Document) : goElements elements = elements.map goValue := by
  induction elements with
  | nil => rfl
  | cons d rest ih => rw [goElements, ih, List.map_cons]

theorem goMembers_eq (members : List (Text × Document)) :
    goMembers members = members.map fun m => (goString m.1, goValue m.2) := by
  induction members with
  | nil => rfl
  | cons m rest ih => rw [goMembers, ih, List.map_cons]

/-- Wherever a value may stand that is not nested too deep, these tokens are this one. -/
def GoParses (tokens : List GoJson.Token) (depth : Nat) (v : GoJson.Value) : Prop :=
  ∀ stack more, stack.length + depth ≤ GoJson.maxNestingDepth →
    (tokens ++ more).foldlM GoJson.Expecting.step (.element stack) =
      more.foldlM GoJson.Expecting.step (.separator stack v)

theorem go_elements {rest : List Document} {depth : Nat}
    (each : ∀ d ∈ rest, GoParses (d.lexemes.map goToken) depth (goValue d)) (done : List GoJson.Value)
    (stack : List GoJson.Frame) (v : GoJson.Value) (more : List GoJson.Token)
    (room : stack.length + 1 + depth ≤ GoJson.maxNestingDepth) :
    (((rest.map Document.lexemes).flatMap (.mark .comma :: ·)).map goToken ++
      .closeArray :: more).foldlM GoJson.Expecting.step (.separator (.array done :: stack) v) =
      more.foldlM GoJson.Expecting.step (.separator stack (.array (done ++ v :: rest.map goValue))) := by
  induction rest generalizing done v with
  | nil => rfl
  | cons d rest ih =>
    rw [List.forall_mem_cons] at each
    have behind := ih each.2 (done ++ [v]) (goValue d)
    rw [List.append_assoc] at behind
    rw [List.map_cons, List.flatMap_cons, List.map_append, List.map_cons, List.append_assoc,
      List.cons_append, List.foldlM_cons]
    exact (each.1 (.array (done ++ [v]) :: stack) _ room).trans behind

theorem go_members {rest : List (Text × Document)} {depth : Nat}
    (each : ∀ m ∈ rest, GoParses (m.2.lexemes.map goToken) depth (goValue m.2))
    (done : List (String × GoJson.Value)) (name : String) (stack : List GoJson.Frame)
    (v : GoJson.Value) (more : List GoJson.Token)
    (room : stack.length + 1 + depth ≤ GoJson.maxNestingDepth) :
    (((rest.map fun m => .string m.1 :: .mark .colon :: m.2.lexemes).flatMap
        (.mark .comma :: ·)).map goToken ++ .closeObject :: more).foldlM GoJson.Expecting.step
      (.separator (.object done name :: stack) v) =
      more.foldlM GoJson.Expecting.step (.separator stack (.object
        (done ++ (name, v) :: rest.map fun m => (goString m.1, goValue m.2)))) := by
  induction rest generalizing done name v with
  | nil => rfl
  | cons m rest ih =>
    rw [List.forall_mem_cons] at each
    have behind := ih each.2 (done ++ [(name, v)]) (goString m.1) (goValue m.2)
    rw [List.append_assoc] at behind
    simp only [List.map_cons, List.flatMap_cons, List.map_append, List.append_assoc,
      List.cons_append, List.foldlM_cons]
    exact (each.1 (.object (done ++ [(name, v)]) (goString m.1) :: stack) _ room).trans behind

theorem GoParses.mono {tokens : List GoJson.Token} {depth deeper : Nat} {v : GoJson.Value}
    (parses : GoParses tokens depth v) (le : depth ≤ deeper) : GoParses tokens deeper v :=
  fun stack more room => parses stack more (by omega)

/-- Behind an opening bracket a value begins, unless the array ends. -/
theorem go_elementOrClose {tokens : List GoJson.Token} {token : GoJson.Token}
    (first : tokens.head? = some token) (opens : token ≠ .closeArray) (stack : List GoJson.Frame) :
    tokens.foldlM GoJson.Expecting.step (.elementOrClose stack) =
      tokens.foldlM GoJson.Expecting.step (.element (.array [] :: stack)) := by
  obtain ⟨rest, rfl⟩ := List.head?_eq_some_iff.mp first
  rw [List.foldlM_cons, List.foldlM_cons]
  cases token with
  | closeArray => exact absurd rfl opens
  | _ => rfl

theorem go_begins (d : Document) : ∃ token tokens, d.lexemes.map goToken = token :: tokens ∧
    token ≠ .closeArray := by
  cases d with
  | word w => cases w <;> exact ⟨_, _, rfl, by simp [goToken]⟩
  | number literal => exact ⟨_, _, rfl, by simp [goToken]⟩
  | string t => exact ⟨_, _, rfl, by simp [goToken]⟩
  | array elements =>
    rw [Document.lexemes]
    exact ⟨_, _, rfl, by simp [goToken]⟩
  | object members =>
    rw [Document.lexemes]
    exact ⟨_, _, rfl, by simp [goToken]⟩

theorem go_parses (d : Document) : GoParses (d.lexemes.map goToken) d.depth (goValue d) := by
  induction d using Document.induction with
  | word w =>
    intro stack more _
    cases w <;> rfl
  | number literal => exact fun stack more _ => rfl
  | string t => exact fun stack more _ => rfl
  | array elements ih =>
    intro stack more room
    rw [Document.depth] at room
    have nested : stack.length < GoJson.maxNestingDepth := by omega
    have each (d : Document) (member : d ∈ elements) :
        GoParses (d.lexemes.map goToken) (elementsDepth elements) (goValue d) :=
      (ih d member).mono (depth_le_elements member)
    have opened : GoJson.Expecting.step (.element stack) .openArray =
        some (.elementOrClose stack) := if_pos nested
    rw [Document.lexemes, elementLexemes_eq, goValue, goElements_eq, List.map_cons, List.cons_append,
      List.foldlM_cons]
    change (GoJson.Expecting.step (.element stack) .openArray >>= _) = _
    rw [opened]
    cases elements with
    | nil => rfl
    | cons d rest =>
      have deep : stack.length + 1 + elementsDepth (d :: rest) ≤ GoJson.maxNestingDepth := by omega
      rw [List.forall_mem_cons] at each
      have behind := go_elements each.2 [] stack (goValue d) more deep
      obtain ⟨token, tokens, split, opens⟩ := go_begins d
      simp only [List.map_cons, separated, List.map_append, List.map_nil, List.append_assoc,
        List.cons_append, List.nil_append]
      refine Eq.trans ?_ ((each.1 (.array [] :: stack) _ deep).trans behind)
      refine @go_elementOrClose _ token ?_ opens _
      rw [split]
      rfl
  | object members ih =>
    intro stack more room
    rw [Document.depth] at room
    have nested : stack.length < GoJson.maxNestingDepth := by omega
    have each (m : Text × Document) (member : m ∈ members) :
        GoParses (m.2.lexemes.map goToken) (membersDepth members) (goValue m.2) :=
      (ih m member).mono (depth_le_members member)
    have opened : GoJson.Expecting.step (.element stack) .openObject =
        some (.keyOrClose stack) := if_pos nested
    rw [Document.lexemes, memberLexemes_eq, goValue, goMembers_eq, List.map_cons, List.cons_append,
      List.foldlM_cons]
    change (GoJson.Expecting.step (.element stack) .openObject >>= _) = _
    rw [opened]
    cases members with
    | nil => rfl
    | cons m rest =>
      have deep : stack.length + 1 + membersDepth (m :: rest) ≤ GoJson.maxNestingDepth := by omega
      rw [List.forall_mem_cons] at each
      have behind := go_members each.2 [] (goString m.1) stack (goValue m.2) more deep
      simp only [List.map_cons, separated, List.map_append, List.map_nil, List.append_assoc,
        List.cons_append, List.nil_append]
      exact (each.1 (.object [] (goString m.1) :: stack) _ deep).trans behind

/-- `encoding/json` reads every text of a document to its value, if it is not too deep. -/
theorem go_parse {d : Document} {cs : List Char} (writes : Writes d cs)
    (shallow : d.depth ≤ GoJson.maxNestingDepth) :
    GoJson.parse (encode8 cs) = some (goValue d) := by
  have lexed : GoJson.lexer.lex .between (encode8 cs) = some (d.lexemes.map goToken) :=
    go_understands.lex_spells writes
  have parsed := go_parses d [] [] (by rw [List.length_nil, Nat.zero_add]; exact shallow)
  rw [List.append_nil] at parsed
  rw [GoJson.parse, lexed]
  simp only [Option.bind_eq_bind, Option.bind_some, parsed]
  rfl

end Hwfa.JsonReaders
