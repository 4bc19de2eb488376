import Hwfa.JsonReaders

/-!
The writers of JSON over its grammar: `JSON.stringify`, and the `encoding/json` of Go
with and without indentation.

Each one is shown to spell the document of what it writes, so that both readers read it:
what one program wrote, the other reads (`go_parse_stringify`, `json_parse_marshal`),
and Go reads its own files (`parse_marshal`).
-/

namespace Hwfa.JsonWriters

open Hwfa.Json (Text stringify toNat_ofNat unit utf16)
open Hwfa.GoJson (Bytes ascii byte)
open Hwfa.JsonGrammar
open Hwfa.JsonReaders

/-! ### Texts of many parts -/

/-- Parts are spelled one behind the other, with a comma and blanks between them. -/
theorem spells_separated {α : Type} {lexemes : α → List Lexeme} {text : α → List Char} {items : List α}
    {blanks : List Char} (blank : ∀ c ∈ blanks, IsSpace c)
    (each : ∀ a ∈ items, Spells (lexemes a) (text a)) :
    Spells (separated (items.map lexemes))
      ((items.map text).intersperse (',' :: blanks)).flatten := by
  cases items with
  | nil => exact .nil
  | cons a rest =>
    rw [List.map_cons, separated]
    induction rest generalizing a with
    | nil =>
      have only := each a List.mem_cons_self
      simpa using only
    | cons b rest ih =>
      rw [List.forall_mem_cons] at each
      have behind := ih b each.2
      rw [List.map_cons, List.map_cons, List.map_cons, List.intersperse_cons_cons, List.flatten_cons,
        List.flatten_cons, List.flatMap_cons]
      refine each.1.append ?_ (ends_mark .comma _)
      exact .mark .comma (behind.spaces blank)

/-- The encoding of a text of many parts. -/
theorem flatMap_intersperse {β : Type} (encode : Char → List β) (separator : List Char)
    (parts : List (List Char)) : ((parts.intersperse separator).flatten).flatMap encode =
      ((parts.map (·.flatMap encode)).intersperse (separator.flatMap encode)).flatten := by
  induction parts with
  | nil => rfl
  | cons first rest ih =>
    cases rest with
    | nil => simp
    | cons second rest =>
      rw [List.intersperse_cons_cons, List.flatten_cons, List.flatten_cons, List.flatMap_append,
        List.flatMap_append, ih]
      rfl

/-! ### `JSON.stringify` -/

/-- The properties of an object as they are listed: array indices first. -/
def listed {α : Type} (members : List (Text × α)) : List (Text × α) :=
  let indices := members.filter fun m => (Json.arrayIndex m.1).isSome
  let others := members.filter fun m => (Json.arrayIndex m.1).isNone
  indices.mergeSort (fun a b => (Json.arrayIndex a.1).getD 0 ≤ (Json.arrayIndex b.1).getD 0) ++ others

/-- The characters of a text whose units are all characters. -/
def characters (t : Text) : List Char := t.map fun u => Char.ofNat u.toNat

mutual

/-- The document that `JSON.stringify` writes of a value. -/
def written : Json.Value → Document
  | .primitive p => match p with
    | .undefined | .null | .number (.infinite _) => .word .null
    | .boolean b => .word (.boolean b)
    | .number n => .number (characters n.text)
    | .string t => .string t
  | .array elements => .array (writtenElements elements)
  | .object members => .object (listed (writtenMembers members))

def writtenElements : List Json.Value → List Document
  | [] => []
  | v :: rest => written v :: writtenElements rest

def writtenMembers : List (Text × Json.Value) → List (Text × Document)
  | [] => []
  | (k, v) :: rest =>
    if v = .undefined then writtenMembers rest else (k, written v) :: writtenMembers rest

end

/-- A text in UTF-16 that is a text of this document. -/
def Says (d : Document) (t : Text) : Prop := ∃ cs, t = encode16 cs ∧ Writes d cs

theorem encode16_append (cs cs' : List Char) :
    encode16 (cs ++ cs') = encode16 cs ++ encode16 cs' := List.flatMap_append

theorem listed_map {α β : Type} (f : α → β) (members : List (Text × α)) :
    listed (members.map fun m => (m.1, f m.2)) = (listed members).map fun m => (m.1, f m.2) := by
  unfold listed
  simp only [List.filter_map, List.map_append]
  congr 1
  exact (List.map_mergeSort (f := fun m : Text × α => (m.1, f m.2)) fun a _ b _ => rfl).symm

theorem writtenElements_eq (elements : List Json.Value) :
    writtenElements elements = elements.map written := by
  induction elements with
  | nil => rfl
  | cons v rest ih => rw [writtenElements, ih, List.map_cons]

theorem writtenMembers_eq (members : List (Text × Json.Value)) :
    writtenMembers members =
      (members.filter (·.2 ≠ .undefined)).map fun m => (m.1, written m.2) := by
  induction members with
  | nil => rfl
  | cons m rest ih =>
    rw [writtenMembers, ih]
    by_cases absent : m.2 = .undefined
    · rw [if_pos absent, List.filter_cons_of_neg (by simpa using absent)]
    · rw [if_neg absent, List.filter_cons_of_pos (by simpa using absent), List.map_cons]

/-- A code that `escapeUnit` writes. -/
theorem hexLetter_eq {d : UInt16} (small : d.toNat < 16) :
    JsonRoundTrip.hexLetter d = unit (hexChar d.toNat) := by
  have all : ∀ n : Fin 16, JsonRoundTrip.hexLetter (UInt16.ofNat n) = unit (hexChar n) := by decide
  have here := all ⟨d.toNat, small⟩
  rw [UInt16.ofNat_toNat] at here
  exact here

theorem literal_escapeUnit (u : UInt16) :
    ∃ cs, Json.escapeUnit u = encode16 cs ∧ Literal [u] cs := by
  have letter {e : Char} {v : UInt16} (known : (e, v) ∈ escapes) : Literal [v] ['\\', e] :=
    .letter known .nil
  unfold Json.escapeUnit
  split
  · next same => subst same; exact ⟨['\\', 'b'], rfl, letter (by decide)⟩
  split
  · next same => subst same; exact ⟨['\\', 't'], rfl, letter (by decide)⟩
  split
  · next same => subst same; exact ⟨['\\', 'n'], rfl, letter (by decide)⟩
  split
  · next same => subst same; exact ⟨['\\', 'f'], rfl, letter (by decide)⟩
  split
  · next same => subst same; exact ⟨['\\', 'r'], rfl, letter (by decide)⟩
  split
  · next same =>
    rcases same with rfl | rfl
    · exact ⟨['\\', '"'], rfl, letter (by decide)⟩
    · exact ⟨['\\', '\\'], rfl, letter (by decide)⟩
  split
  · have range := u.toNat_lt
    have first : (u / 0x1000).toNat = u.toNat / 0x1000 := rfl
    have second : (u / 0x100 % 0x10).toNat = u.toNat / 0x100 % 0x10 := rfl
    have third : (u / 0x10 % 0x10).toNat = u.toNat / 0x10 % 0x10 := rfl
    have fourth : (u % 0x10).toNat = u.toNat % 0x10 := rfl
    have small : (u / 0x1000).toNat < 16 ∧ (u / 0x100 % 0x10).toNat < 16 ∧
        (u / 0x10 % 0x10).toNat < 16 ∧ (u % 0x10).toNat < 16 := by omega
    refine ⟨_, ?_, .code _ _ _ _ small (by omega) .nil⟩
    simp only [encode16, List.flatMap_cons, units_hexChar small.1, units_hexChar small.2.1,
      units_hexChar small.2.2.1, units_hexChar small.2.2.2, ← hexLetter_eq small.1,
      ← hexLetter_eq small.2.1, ← hexLetter_eq small.2.2.1, ← hexLetter_eq small.2.2.2]
    rfl
  · next special half =>
    simp only [not_or] at special half
    obtain ⟨visible, leads, trails⟩ := half
    rw [isLeading_iff] at leads
    rw [isTrailing_iff] at trails
    rw [UInt16.lt_iff_toNat_lt] at visible
    have space : (0x20 : UInt16).toNat = 32 := rfl
    have range := u.toNat_lt
    have valid : u.toNat.isValidChar := by
      rw [Nat.isValidChar]
      omega
    have number : (Char.ofNat u.toNat).toNat = u.toNat := toNat_ofNat valid
    have same : unit (Char.ofNat u.toNat) = u := by
      rw [unit, number, UInt16.ofNat_toNat]
    have alone : units (Char.ofNat u.toNat) = [u] := by
      rw [units_low (by omega), same]
    have plain : Literal (units (Char.ofNat u.toNat) ++ []) [Char.ofNat u.toNat] := by
      refine .plain _ (by omega) (fun quote => special.1 ?_) (fun backslash => special.2 ?_) .nil
      · rw [← same, quote]
      · rw [← same, backslash]
    rw [List.append_nil, alone] at plain
    refine ⟨[Char.ofNat u.toNat], ?_, plain⟩
    rw [encode16, List.flatMap_singleton, alone]

theorem literal_escape (t : Text) : ∃ cs, Json.escape t = encode16 cs ∧ Literal t cs := by
  induction t using Json.escape.induct with
  | case1 => exact ⟨[], rfl, .nil⟩
  | case2 u => exact literal_escapeUnit u
  | case3 u v rest pair ih =>
    obtain ⟨cs, same, literal⟩ := ih
    obtain ⟨leads, trails⟩ := pair
    rw [isLeading_iff] at leads
    rw [isTrailing_iff] at trails
    let code := 0x10000 + (u.toNat - 0xD800) * 0x400 + (v.toNat - 0xDC00)
    have code_eq : code = 0x10000 + (u.toNat - 0xD800) * 0x400 + (v.toNat - 0xDC00) := rfl
    have valid : code.isValidChar := by
      rw [Nat.isValidChar]
      omega
    have number : (Char.ofNat code).toNat = code := toNat_ofNat valid
    have first : UInt16.ofNat (0xD800 + (code - 0x10000) / 0x400) = u := by
      apply UInt16.toNat_inj.mp
      rw [UInt16.toNat_ofNat']
      omega
    have second : UInt16.ofNat (0xDC00 + (code - 0x10000) % 0x400) = v := by
      apply UInt16.toNat_inj.mp
      rw [UInt16.toNat_ofNat']
      omega
    have both : units (Char.ofNat code) = [u, v] := by
      rw [units, if_neg (by omega)]
      simp only [number, first, second]
    have plain : Literal (units (Char.ofNat code) ++ rest) (Char.ofNat code :: cs) := by
      refine .plain _ (by omega) (fun quote => ?_) (fun backslash => ?_) literal
      · have small : ('"' : Char).toNat = 34 := rfl
        rw [quote] at number
        omega
      · have small : ('\\' : Char).toNat = 92 := rfl
        rw [backslash] at number
        omega
    rw [both] at plain
    refine ⟨_, ?_, plain⟩
    rw [Json.escape, if_pos ⟨isLeading_iff.mpr leads, isTrailing_iff.mpr trails⟩, same]
    change u :: v :: encode16 cs = units (Char.ofNat code) ++ encode16 cs
    rw [both]
    rfl
  | case4 u v rest alone ih =>
    obtain ⟨cs, same, literal⟩ := ih
    obtain ⟨cs', same', literal'⟩ := literal_escapeUnit u
    refine ⟨cs' ++ cs, ?_, literal'.append literal⟩
    rw [Json.escape, if_neg alone, same, same', encode16_append]

theorem spells_quote (t : Text) : ∃ cs, Json.quote t = encode16 cs ∧
    ∀ {ls : List Lexeme} {more : List Char}, Spells ls more → Spells (.string t :: ls) (cs ++ more) := by
  obtain ⟨inside, same, literal⟩ := literal_escape t
  refine ⟨'"' :: (inside ++ ['"']), ?_, ?_⟩
  · rw [Json.quote, same, encode16, encode16, List.flatMap_cons, List.flatMap_append]
    rfl
  · intro ls more rest
    rw [List.cons_append, List.append_assoc]
    exact .string literal rest

/-- A text of many parts, with the marks around it. -/
theorem says_separated {α : Type} {lexemes : α → List Lexeme} {text : α → Text} {items : List α}
    (each : ∀ a ∈ items, ∃ cs, text a = encode16 cs ∧ Spells (lexemes a) cs) (opening closing : Mark) :
    ∃ cs, unit opening.char :: Json.join [unit ','] (items.map text) ++ [unit closing.char] =
        encode16 cs ∧
      Spells (.mark opening :: (separated (items.map lexemes) ++ [.mark closing])) cs := by
  have single (m : Mark) : units m.char = [unit m.char] := by cases m <;> rfl
  have decoded (a : α) (member : a ∈ items) :
      text a = encode16 (scalars (text a)) ∧ Spells (lexemes a) (scalars (text a)) := by
    obtain ⟨cs, same, spells⟩ := each a member
    rw [same, scalars_encode16]
    exact ⟨rfl, spells⟩
  have inside : Spells (separated (items.map lexemes))
      ((items.map fun a => scalars (text a)).intersperse [',']).flatten :=
    spells_separated (List.forall_mem_nil _) fun a member => (decoded a member).2
  have joined : Json.join [unit ','] (items.map text) =
      encode16 ((items.map fun a => scalars (text a)).intersperse [',']).flatten := by
    have texts : items.map text = items.map fun a => encode16 (scalars (text a)) :=
      List.map_congr_left fun a member => (decoded a member).1
    rw [encode16, flatMap_intersperse, List.map_map, texts]
    rfl
  refine ⟨opening.char :: (_ ++ [closing.char]), ?_, .mark opening (inside.append ?_ ?_)⟩
  · rw [joined, encode16, encode16, List.flatMap_cons, List.flatMap_append, List.flatMap_singleton,
      single, single]
    rfl
  · exact .mark closing .nil
  · exact ends_mark closing []

theorem spells_word (w : Word) : Spells [.word w] w.chars := by
  have word := Spells.word w ends_nil .nil
  rw [List.append_nil] at word
  exact word

theorem spells_number {literal : List Char} (is_literal : IsLiteral literal) :
    Spells [.number literal] literal := by
  have number := Spells.number is_literal ends_nil .nil
  rw [List.append_nil] at number
  exact number

/-- The characters of a numeral. -/
theorem numeral_unit {u : UInt16} (numeral : Json.inNumeral u = true) :
    IsNumeral (Char.ofNat u.toNat) ∧ unit (Char.ofNat u.toNat) = u := by
  rw [Json.inNumeral, Bool.or_eq_true] at numeral
  rcases numeral with digit | mark
  · rw [Json.isDigit, Bool.and_eq_true, decide_eq_true_eq, decide_eq_true_eq, UInt16.le_iff_toNat_le,
      UInt16.le_iff_toNat_le] at digit
    have low : 48 ≤ u.toNat := digit.1
    have high : u.toNat ≤ 57 := digit.2
    rw [← UInt16.ofNat_toNat (x := u)]
    generalize u.toNat = n at low high
    obtain rfl | rfl | rfl | rfl | rfl | rfl | rfl | rfl | rfl | rfl : n = 48 ∨ n = 49 ∨ n = 50 ∨
        n = 51 ∨ n = 52 ∨ n = 53 ∨ n = 54 ∨ n = 55 ∨ n = 56 ∨ n = 57 := by omega
    all_goals exact ⟨.inl rfl, rfl⟩
  · rw [decide_eq_true_eq] at mark
    simp only [List.mem_cons, List.not_mem_nil, or_false] at mark
    rcases mark with rfl | rfl | rfl | rfl | rfl
    all_goals exact ⟨.inr (by decide), rfl⟩

theorem isLiteral_text {quanta : Int} (reads : Json.readNumber (Json.Number.text (.finite quanta)) =
    some (.finite quanta)) : IsLiteral (characters (Json.Number.text (.finite quanta))) ∧
      (characters (Json.Number.text (.finite quanta))).map unit =
        Json.Number.text (.finite quanta) := by
  obtain ⟨u, more, text, first, others⟩ := JsonRoundTrip.text_shape quanta
  have begins : Json.inNumeral u = true := by
    rcases first with rfl | digit
    · rfl
    · exact JsonRoundTrip.inNumeral_of_isDigit digit
  have all : ∀ v ∈ Json.Number.text (.finite quanta), Json.inNumeral v = true := by
    rw [text]
    exact List.forall_mem_cons.mpr ⟨begins, others⟩
  have same : (characters (Json.Number.text (.finite quanta))).map unit =
      Json.Number.text (.finite quanta) := by
    rw [characters, List.map_map]
    conv => rhs; rw [← List.map_id (Json.Number.text (.finite quanta))]
    exact List.map_congr_left fun v member => (numeral_unit (all v member)).2
  refine ⟨⟨⟨Char.ofNat u.toNat, characters more, ?_, ?_⟩, ?_, ?_⟩, same⟩
  · rw [text]
    rfl
  · rcases first with rfl | digit
    · exact .inl rfl
    · right
      have range := digit
      rw [Json.isDigit, Bool.and_eq_true, decide_eq_true_eq, decide_eq_true_eq,
        UInt16.le_iff_toNat_le, UInt16.le_iff_toNat_le] at range
      have low : 48 ≤ u.toNat := range.1
      have high : u.toNat ≤ 57 := range.2
      have value : (Char.ofNat u.toNat).toNat = u.toNat :=
        toNat_ofNat (Or.inl (by omega))
      rw [Char.isDigit, Bool.and_eq_true, decide_eq_true_eq, decide_eq_true_eq]
      rw [ge_iff_le, UInt32.le_iff_toNat_le, UInt32.le_iff_toNat_le]
      change 48 ≤ (Char.ofNat u.toNat).toNat ∧ (Char.ofNat u.toNat).toNat ≤ 57
      omega
  · intro c member
    obtain ⟨v, inside, rfl⟩ := List.mem_map.mp member
    exact (numeral_unit (all v inside)).1
  · rw [same, reads]
    rfl

theorem says_primitive {p : Json.Primitive} {t : Text} (held : JsonRoundTrip.Held (.primitive p))
    (text : stringify (.primitive p) = some t) : Says (written (.primitive p)) t := by
  have null : Says (.word .null) (utf16 "null") := ⟨_, utf16_eq _, spells_word .null⟩
  cases p with
  | undefined => cases text
  | null =>
    cases text
    exact null
  | boolean b =>
    cases text
    cases b with
    | true => exact ⟨_, utf16_eq _, spells_word (.boolean true)⟩
    | false => exact ⟨_, utf16_eq _, spells_word (.boolean false)⟩
  | number n =>
    cases n with
    | infinite negative =>
      cases text
      exact null
    | finite quanta =>
      cases text
      cases held with
      | primitive number =>
        obtain ⟨is_literal, same⟩ := isLiteral_text (number quanta rfl)
        refine ⟨_, ?_, spells_number is_literal⟩
        rw [encode16_low fun c member => low_of_numeral (is_literal.numeral c member), same]
  | string text' =>
    cases text
    obtain ⟨cs, same, spells⟩ := spells_quote text'
    refine ⟨cs ++ [], ?_, spells .nil⟩
    rw [List.append_nil]
    exact same

/-- What `JSON.stringify` writes is a text of the document of the value. -/
theorem says_stringify {v : Json.Value} (held : JsonRoundTrip.Held v) :
    ∀ t, stringify v = some t → Says (written v) t := by
  induction held with
  | primitive number => exact fun t text => says_primitive (.primitive number) text
  | @array elements _ ih =>
    intro t text
    have each (v : Json.Value) (member : v ∈ elements) : ∃ cs,
        (stringify v).getD (utf16 "null") = encode16 cs ∧ Spells (written v).lexemes cs := by
      by_cases absent : v = .undefined
      · subst absent
        exact ⟨_, utf16_eq _, spells_word .null⟩
      · obtain ⟨t, there⟩ := Option.ne_none_iff_exists'.mp
          (mt JsonRoundTrip.stringify_eq_none.mp absent)
        rw [there]
        exact ih v member t there
    obtain ⟨cs, same, spells⟩ := says_separated each .openArray .closeArray
    rw [stringify, JsonRoundTrip.stringifyElements_eq, Option.some.injEq] at text
    refine ⟨cs, text.symm.trans same, ?_⟩
    rw [Writes, written, Document.lexemes, elementLexemes_eq, writtenElements_eq, List.map_map]
    exact spells
  | @object members _ _ ih =>
    intro t text
    let items := Json.indexFirst (members.filter (·.2 ≠ .undefined))
    have each (m : Text × Json.Value) (member : m ∈ items) : ∃ cs,
        Json.quote m.1 ++ unit ':' :: (stringify m.2).getD [] = encode16 cs ∧
          Spells (.string m.1 :: .mark .colon :: (written m.2).lexemes) cs := by
      rw [Json.mem_indexFirst, List.mem_filter, decide_eq_true_eq] at member
      obtain ⟨inside, there⟩ := member
      obtain ⟨t, known⟩ := Option.ne_none_iff_exists'.mp
        (mt JsonRoundTrip.stringify_eq_none.mp there)
      obtain ⟨value, same, spells⟩ := ih m inside t known
      obtain ⟨key, quoted, spells_key⟩ := spells_quote m.1
      refine ⟨key ++ ':' :: value, ?_, spells_key (.mark .colon spells)⟩
      rw [known, quoted, Option.getD_some, same, encode16_append]
      rfl
    obtain ⟨cs, same, spells⟩ := says_separated each .openObject .closeObject
    rw [stringify, JsonRoundTrip.stringifyMembers_eq,
      JsonRoundTrip.ownKeysFirst_map fun v => (stringify v).getD [], List.map_map,
      Option.some.injEq] at text
    have order : listed (writtenMembers members) = items.map fun m => (m.1, written m.2) := by
      rw [writtenMembers_eq, listed_map]
      rfl
    refine ⟨cs, text.symm.trans same, ?_⟩
    rw [Writes, written, Document.lexemes, memberLexemes_eq, order, List.map_map]
    exact spells

/-! ### `encoding/json` -/

/-- How the parts of a value are laid out: what stands before an element at a depth, and
what behind a colon. -/
structure Layout where
  blanks : Nat → List Char
  behindColon : List Char

/-- `json.Marshal`. -/
def compact : Layout := ⟨fun _ => [], []⟩

/-- `json.MarshalIndent` without a prefix, with an indentation of two spaces. -/
def indented : Layout := ⟨fun depth => '\n' :: List.replicate (2 * depth) ' ', [' ']⟩

/-- The parts of an array or an object between its marks; an empty one has no blanks. -/
def enclose (layout : Layout) (depth : Nat) (opening closing : Mark) (parts : List Bytes) : Bytes :=
  if parts = [] then encode8 [opening.char, closing.char]
  else
    encode8 (opening.char :: layout.blanks (depth + 1)) ++
      ((parts.intersperse (encode8 (',' :: layout.blanks (depth + 1)))).flatten ++
        encode8 (layout.blanks depth ++ [closing.char]))

mutual

/-- The encoder of a value: a struct is the object of the fields that it shows, a map the
object of its entries by the order of the keys. -/
def marshalWith (layout : Layout) (depth : Nat) : GoJson.Value → Bytes
  | .scalar .null => encode8 Word.null.chars
  | .scalar (.boolean b) => encode8 (Word.boolean b).chars
  | .scalar (.number literal) => literal
  | .scalar (.string s) => GoJson.quote s
  | .array elements =>
    enclose layout depth .openArray .closeArray (marshalElements layout (depth + 1) elements)
  | .object members =>
    enclose layout depth .openObject .closeObject (marshalMembers layout (depth + 1) members)

def marshalElements (layout : Layout) (depth : Nat) : List GoJson.Value → List Bytes
  | [] => []
  | v :: rest => marshalWith layout depth v :: marshalElements layout depth rest

def marshalMembers (layout : Layout) (depth : Nat) : List (String × GoJson.Value) → List Bytes
  | [] => []
  | (k, v) :: rest =>
    (GoJson.quote k ++ encode8 (':' :: layout.behindColon) ++ marshalWith layout depth v) ::
      marshalMembers layout depth rest

end

def marshal (v : GoJson.Value) : Bytes := marshalWith compact 0 v

def marshalIndent (v : GoJson.Value) : Bytes := marshalWith indented 0 v

/-- `Encode` of a `json.Encoder`, which ends the line. -/
def encodeLine (v : GoJson.Value) : Bytes := marshal v ++ encode8 ['\n']

mutual

/-- The document that the encoder writes of a value. -/
def shown : GoJson.Value → Document
  | .scalar .null => .word .null
  | .scalar (.boolean b) => .word (.boolean b)
  | .scalar (.number literal) => .number (literal.map fun b => Char.ofNat b.toNat)
  | .scalar (.string s) => .string (utf16 s)
  | .array elements => .array (shownElements elements)
  | .object members => .object (shownMembers members)

def shownElements : List GoJson.Value → List Document
  | [] => []
  | v :: rest => shown v :: shownElements rest

def shownMembers : List (String × GoJson.Value) → List (Text × Document)
  | [] => []
  | (k, v) :: rest => (utf16 k, shown v) :: shownMembers rest

end

/-- The numbers of a value are literals. -/
inductive Numbered : GoJson.Value → Prop where
  | null : Numbered (.scalar .null)
  | boolean (b : Bool) : Numbered (.scalar (.boolean b))
  | number {literal : List Char} : IsLiteral literal →
    Numbered (.scalar (.number (ascii literal)))
  | string (s : String) : Numbered (.scalar (.string s))
  | array {elements : List GoJson.Value} : (∀ v ∈ elements, Numbered v) → Numbered (.array elements)
  | object {members : List (String × GoJson.Value)} :
    (∀ m ∈ members, Numbered m.2) → Numbered (.object members)

theorem marshalElements_eq (layout : Layout) (depth : Nat) (elements : List GoJson.Value) :
    marshalElements layout depth elements = elements.map (marshalWith layout depth) := by
  induction elements with
  | nil => rfl
  | cons v rest ih => rw [marshalElements, ih, List.map_cons]

theorem marshalMembers_eq (layout : Layout) (depth : Nat) (members : List (String × GoJson.Value)) :
    marshalMembers layout depth members = members.map fun m =>
      GoJson.quote m.1 ++ encode8 (':' :: layout.behindColon) ++ marshalWith layout depth m.2 := by
  induction members with
  | nil => rfl
  | cons m rest ih => rw [marshalMembers, ih, List.map_cons]

theorem shownElements_eq (elements : List GoJson.Value) :
    shownElements elements = elements.map shown := by
  induction elements with
  | nil => rfl
  | cons v rest ih => rw [shownElements, ih, List.map_cons]

theorem shownMembers_eq (members : List (String × GoJson.Value)) :
    shownMembers members = members.map fun m => (utf16 m.1, shown m.2) := by
  induction members with
  | nil => rfl
  | cons m rest ih => rw [shownMembers, ih, List.map_cons]

theorem encode8_append (cs cs' : List Char) : encode8 (cs ++ cs') = encode8 cs ++ encode8 cs' :=
  List.flatMap_append

/-- One character, as `appendString` writes it. -/
theorem literal_goEscape (c : Char) :
    ∃ cs, GoJson.escape c = encode8 cs ∧ Literal (units c) cs := by
  have letter {e : Char} {v : UInt16} (known : (e, v) ∈ escapes) : Literal [v] ['\\', e] :=
    .letter known .nil
  have single {n : Nat} (same : c.toNat = n) : c = Char.ofNat n := by
    rw [← same, Char.ofNat_toNat]
  have code {w x y z : Nat} (small : w < 16 ∧ x < 16 ∧ y < 16 ∧ z < 16) (low : c.toNat < 0x10000)
      (number : ((w * 16 + x) * 16 + y) * 16 + z = c.toNat) :
      ∃ cs, codeBytes w x y z = encode8 cs ∧ Literal (units c) cs := by
    have whole := encode8_code small []
    rw [units_low low]
    exact ⟨_, whole.symm, .code w x y z small (number.trans (toNat_unit low).symm) .nil⟩
  unfold GoJson.escape
  split
  · next special =>
    rcases special with rfl | rfl
    · exact ⟨['\\', '"'], rfl, letter (by decide)⟩
    · exact ⟨['\\', '\\'], rfl, letter (by decide)⟩
  split
  · next same =>
    rw [single same]
    exact ⟨['\\', 'b'], rfl, letter (by decide)⟩
  split
  · next same =>
    rw [single same]
    exact ⟨['\\', 'f'], rfl, letter (by decide)⟩
  split
  · next same => subst same; exact ⟨['\\', 'n'], rfl, letter (by decide)⟩
  split
  · next same => subst same; exact ⟨['\\', 'r'], rfl, letter (by decide)⟩
  split
  · next same => subst same; exact ⟨['\\', 't'], rfl, letter (by decide)⟩
  split
  · next hidden =>
    have small : c.toNat < 256 := by
      rcases hidden with low | rfl | rfl | rfl
      · omega
      · decide
      · decide
      · decide
    exact code (w := 0) (x := 0) (by omega) (by omega) (by omega)
  split
  · next separator => exact code (w := 2) (x := 0) (y := 2) (by omega) (by omega) (by omega)
  · next notQuote _ _ _ _ _ visible _ =>
    simp only [not_or] at notQuote visible
    have plain := Literal.plain c (by omega) notQuote.1 notQuote.2 .nil
    rw [List.append_nil] at plain
    exact ⟨[c], (List.append_nil _).symm, plain⟩

theorem literal_goEscapes (cs : List Char) :
    ∃ inside, cs.flatMap GoJson.escape = encode8 inside ∧ Literal (encode16 cs) inside := by
  induction cs with
  | nil => exact ⟨[], rfl, .nil⟩
  | cons c rest ih =>
    obtain ⟨inside, same, literal⟩ := ih
    obtain ⟨first, written, literal_first⟩ := literal_goEscape c
    refine ⟨first ++ inside, ?_, literal_first.append literal⟩
    rw [List.flatMap_cons, same, written, encode8_append]

theorem encode16_toList (s : String) : utf16 s = encode16 s.toList := by
  conv => lhs; rw [← String.ofList_toList (s := s)]
  exact utf16_eq s.toList

theorem spells_goQuote (s : String) : ∃ cs, GoJson.quote s = encode8 cs ∧
    ∀ {ls : List Lexeme} {more : List Char}, Spells ls more →
      Spells (.string (utf16 s) :: ls) (cs ++ more) := by
  obtain ⟨inside, same, literal⟩ := literal_goEscapes s.toList
  refine ⟨'"' :: (inside ++ ['"']), ?_, ?_⟩
  · rw [GoJson.quote, same, encode8_cons, encode8_append]
    rfl
  · intro ls more rest
    rw [List.cons_append, List.append_assoc, encode16_toList]
    exact .string literal rest

/-- A layout of spaces. -/
def Layout.IsBlank (layout : Layout) : Prop :=
  (∀ depth, ∀ c ∈ layout.blanks depth, IsSpace c) ∧ ∀ c ∈ layout.behindColon, IsSpace c

theorem isBlank_compact : compact.IsBlank :=
  ⟨fun _ => List.forall_mem_nil _, List.forall_mem_nil _⟩

theorem isBlank_indented : indented.IsBlank := by
  refine ⟨fun depth => List.forall_mem_cons.mpr ⟨.inr (.inl rfl), ?_⟩, ?_⟩
  · intro c member
    exact .inr (.inr (.inr (List.eq_of_mem_replicate member)))
  · exact List.forall_mem_singleton.mpr (.inr (.inr (.inr rfl)))

/-- A text in UTF-8 of lexemes. -/
def Prints (ls : List Lexeme) (bytes : Bytes) : Prop := ∃ cs, bytes = encode8 cs ∧ Spells ls cs

theorem ends_blanks {blanks : List Char} (blank : ∀ c ∈ blanks, IsSpace c) (m : Mark)
    (more : List Char) : Ends (blanks ++ m.char :: more) := by
  cases blanks with
  | nil => exact ends_mark m more
  | cons c rest => exact ends_space (blank c List.mem_cons_self) _

theorem prints_enclose {α : Type} {layout : Layout} (blank : layout.IsBlank) {lexemes : α → List Lexeme}
    {bytes : α → Bytes} {items : List α} (each : ∀ a ∈ items, Prints (lexemes a) (bytes a))
    (depth : Nat) (opening closing : Mark) :
    Prints (.mark opening :: (separated (items.map lexemes) ++ [.mark closing]))
      (enclose layout depth opening closing (items.map bytes)) := by
  cases items with
  | nil => exact ⟨_, rfl, .mark opening (.mark closing .nil)⟩
  | cons first rest =>
    choose! text same spells using each
    have inside := spells_separated (blank.1 (depth + 1)) spells
    have encoded : (first :: rest).map bytes = ((first :: rest).map text).map encode8 := by
      rw [List.map_map]
      exact List.map_congr_left same
    refine ⟨opening.char :: (layout.blanks (depth + 1) ++ (_ ++
      (layout.blanks depth ++ [closing.char]))), ?_, .mark opening (Spells.spaces
        (blank.1 (depth + 1)) (inside.append ?_ ?_))⟩
    · have joined : encode8 _ = _ := flatMap_intersperse String.utf8EncodeChar
        (',' :: layout.blanks (depth + 1)) ((first :: rest).map text)
      rw [enclose, if_neg (by simp), encoded, ← List.cons_append, encode8_append _ (_ ++ _),
        encode8_append _ (_ ++ _), joined]
      rfl
    · exact Spells.spaces (blank.1 depth) (.mark closing .nil)
    · exact ends_blanks (blank.1 depth) closing []

theorem ofNat_ascii {literal : List Char} (is_literal : IsLiteral literal) :
    (ascii literal).map (fun b => Char.ofNat b.toNat) = literal :=
  GoJson.ofNat_ascii fun c member => low_of_numeral (is_literal.numeral c member)

/-- What the encoder writes is a text of the document of the value. -/
theorem prints_marshal {layout : Layout} (blank : layout.IsBlank) {v : GoJson.Value}
    (numbered : Numbered v) (depth : Nat) :
    Prints (shown v).lexemes (marshalWith layout depth v) := by
  induction numbered generalizing depth with
  | null => exact ⟨_, rfl, spells_word .null⟩
  | boolean b => exact ⟨_, rfl, spells_word (.boolean b)⟩
  | @number literal is_literal =>
    refine ⟨literal, ?_, ?_⟩
    · rw [encode8_low fun c member => low_of_numeral (is_literal.numeral c member)]
      rfl
    · rw [shown, ofNat_ascii is_literal]
      exact spells_number is_literal
  | string s =>
    obtain ⟨cs, same, spells⟩ := spells_goQuote s
    refine ⟨cs ++ [], ?_, spells .nil⟩
    rw [List.append_nil]
    exact same
  | @array elements _ ih =>
    rw [marshalWith, shown, Document.lexemes, elementLexemes_eq, shownElements_eq, List.map_map,
      marshalElements_eq]
    exact prints_enclose blank (fun v member => ih v member (depth + 1)) depth .openArray .closeArray
  | @object members _ ih =>
    rw [marshalWith, shown, Document.lexemes, memberLexemes_eq, shownMembers_eq, List.map_map,
      marshalMembers_eq]
    apply prints_enclose blank
    intro m member
    obtain ⟨value, same, spells⟩ := ih m member (depth + 1)
    obtain ⟨key, quoted, spells_key⟩ := spells_goQuote m.1
    refine ⟨key ++ ':' :: (layout.behindColon ++ value), ?_,
      spells_key (.mark .colon (spells.spaces blank.2))⟩
    rw [same, quoted, encode8_append, encode8_cons, encode8_cons, encode8_append]
    simp only [List.append_assoc]

/-- Reading what was shown gives the value back. -/
theorem goValue_shown {v : GoJson.Value} (numbered : Numbered v) : goValue (shown v) = v := by
  induction numbered with
  | null => rfl
  | boolean b => rfl
  | number is_literal =>
    rw [shown, ofNat_ascii is_literal, goValue]
  | string s => rw [shown, goValue, goString_utf16]
  | array _ ih =>
    rw [shown, shownElements_eq, goValue, goElements_eq, List.map_map]
    congr 1
    exact (List.map_congr_left ih).trans (List.map_id _)
  | object _ ih =>
    rw [shown, shownMembers_eq, goValue, goMembers_eq, List.map_map]
    congr 1
    refine (List.map_congr_left fun m member => ?_).trans (List.map_id _)
    rw [Function.comp_apply, goString_utf16, ih m member]
    rfl

/-- Go reads what it wrote, however it was laid out. -/
theorem parse_marshalWith {layout : Layout} (blank : layout.IsBlank) {v : GoJson.Value}
    (numbered : Numbered v) (shallow : (shown v).depth ≤ GoJson.maxNestingDepth) :
    GoJson.parse (marshalWith layout 0 v) = some v := by
  obtain ⟨cs, same, writes⟩ := prints_marshal blank numbered 0
  rw [same, go_parse writes shallow, goValue_shown numbered]

/-! ### Integers -/

/-- An integer that is a double below two to the power 53. -/
def IsSafe (n : Int) : Prop := -9007199254740992 < n ∧ n < 9007199254740992

theorem ofInt_eq {n : Int} (safe : IsSafe n) : Doubles.ofInt n = .finite (n * Json.one) := by
  obtain ⟨low, high⟩ := safe
  have small : n.natAbs ≤ 9007199254740992 := by omega
  rw [Doubles.ofInt, Doubles.ofDecimal_eq, JsonRoundTrip.nearest_natCast small,
    Doubles.signed_of_lt (Doubles.lt_overflow small)]
  congr 1
  by_cases negative : n < 0
  · rw [decide_eq_true negative]
    have flipped : n = -(n.natAbs : Int) := by omega
    conv => rhs; rw [flipped]
    rw [Doubles.withSign, if_pos rfl, Int.natCast_mul, Int.neg_mul]
  · rw [decide_eq_false negative, Doubles.withSign_false, Int.natCast_mul]
    have same : n = (n.natAbs : Int) := by omega
    conv => rhs; rw [same]

/-- JavaScript writes it as Go does. -/
theorem text_ofInt {n : Int} (safe : IsSafe n) :
    Json.Number.text (Doubles.ofInt n) = n.repr.toList.map unit := by
  obtain ⟨low, high⟩ := safe
  have size : (n * Json.one).natAbs = n.natAbs * Json.one := by
    rw [Int.natAbs_mul, Int.natAbs_natCast]
  have one_pos : (0 : Int) < Json.one := Int.natCast_pos.mpr Doubles.one_pos
  rw [ofInt_eq ⟨low, high⟩, Json.Number.text]
  rcases Int.lt_trichotomy n 0 with negative | rfl | positive
  · have below : n * Json.one < 0 := Int.mul_neg_of_neg_of_pos negative one_pos
    have digits : n.repr.toList = '-' :: (Nat.toDigits 10 n.natAbs) := by
      rw [Int.repr_eq_if, if_neg (by omega), String.toList_append, Nat.toList_repr]
      have flipped : (-n).toNat = n.natAbs := by omega
      rw [flipped]
      rfl
    rw [if_neg (by omega), if_pos below, size, JsonRoundTrip.sizeText_natCast (by omega) (by omega),
      digits]
    rfl
  · rw [if_pos (Int.zero_mul _)]
    rfl
  · have above : 0 < n * Json.one := Int.mul_pos positive one_pos
    have digits : n.repr.toList = Nat.toDigits 10 n.natAbs := by
      rw [Int.repr_eq_if, if_pos (by omega), Nat.toList_repr]
      congr 1
      omega
    rw [if_neg (by omega), if_neg (by omega), size,
      JsonRoundTrip.sizeText_natCast (by omega) (by omega), digits]
    rfl

theorem characters_repr (n : Int) : characters (n.repr.toList.map unit) = n.repr.toList := by
  rw [characters, List.map_map]
  refine (List.map_congr_left fun c member => ?_).trans (List.map_id _)
  have low := GoJson.repr_ascii n c member
  rw [Function.comp_apply, toNat_unit (by omega), Char.ofNat_toNat]
  rfl

theorem held_ofInt {n : Int} (safe : IsSafe n) : JsonRoundTrip.Held (.number (Doubles.ofInt n)) := by
  refine .primitive fun quanta same => ?_
  have number : Doubles.ofInt n = .finite quanta := Json.Primitive.number.inj same
  rw [← number, text_ofInt safe, Doubles.readNumber_repr]

theorem written_finite (quanta : Int) : written (.number (.finite quanta)) =
    .number (characters (Json.Number.text (.finite quanta))) := rfl

theorem written_ofInt {n : Int} (safe : IsSafe n) :
    written (.number (Doubles.ofInt n)) = .number n.repr.toList := by
  obtain ⟨quanta, finite⟩ : ∃ quanta, Doubles.ofInt n = .finite quanta := ⟨_, ofInt_eq safe⟩
  have text := text_ofInt safe
  rw [finite] at text ⊢
  rw [written_finite, text, characters_repr]

/-- An integer that Go wrote is the double nearest to it. -/
theorem jsValue_int (n : Int) :
    jsValue (shown (.scalar (.number (GoJson.appendInt n)))) = .number (Doubles.ofInt n) := by
  have literal : (GoJson.appendInt n).map (fun b => Char.ofNat b.toNat) = n.repr.toList :=
    GoJson.ofNat_ascii (GoJson.repr_ascii n)
  rw [shown, literal, jsValue, Doubles.readNumber_repr, Option.getD_some]

/-! ### From one to the other -/

/-- A string of JavaScript that is sent as UTF-8. -/
def utf8Text (t : Text) : Bytes := encode8 (scalars t)

/-- The characters of bytes in UTF-8, if they are. -/
def decode8 (bytes : Bytes) : Option (List Char) :=
  (String.fromUTF8? bytes.toByteArray).map String.toList

/-- The string of JavaScript that is received as UTF-8. -/
def receiveText (bytes : Bytes) : Option Text := (decode8 bytes).map encode16

theorem decode8_encode8 (cs : List Char) : decode8 (encode8 cs) = some cs := by
  have bytes : (encode8 cs).toByteArray = (String.ofList cs).toByteArray := by
    rw [← String.utf8Encode_toList, String.toList_ofList]
    rfl
  have valid : (encode8 cs).toByteArray.IsValidUTF8 := by
    rw [bytes]
    exact (String.ofList cs).isValidUTF8
  have string : String.fromUTF8 _ valid = String.ofList cs := by
    apply String.toByteArray_inj.mp
    exact bytes
  rw [decode8, String.fromUTF8?, dif_pos valid, Option.map_some, string, String.toList_ofList]

/-- Go reads what `JSON.stringify` wrote. -/
theorem go_parse_stringify {v : Json.Value} (held : JsonRoundTrip.Held v) {t : Text}
    (text : stringify v = some t) (shallow : (written v).depth ≤ GoJson.maxNestingDepth) :
    GoJson.parse (utf8Text t) = some (goValue (written v)) := by
  obtain ⟨cs, rfl, writes⟩ := says_stringify held t text
  rw [utf8Text, scalars_encode16, go_parse writes shallow]

/-- `JSON.parse` reads what is a text in UTF-8 of a document. -/
theorem json_parse_prints {d : Document} {bytes : Bytes} (prints : Prints d.lexemes bytes) :
    (receiveText bytes).bind Json.parse = some (jsValue d) := by
  obtain ⟨cs, rfl, writes⟩ := prints
  rw [receiveText, decode8_encode8, Option.map_some, Option.bind_some, json_parse writes]

theorem Prints.endLine {ls : List Lexeme} {bytes : Bytes} (prints : Prints ls bytes) :
    Prints ls (bytes ++ encode8 ['\n']) := by
  obtain ⟨cs, rfl, spells⟩ := prints
  have blank : IsSpace '\n' := .inr (.inl rfl)
  have whole := spells.append (.space blank .nil) (ends_space blank [])
  rw [List.append_nil] at whole
  exact ⟨cs ++ ['\n'], (encode8_append cs ['\n']).symm, whole⟩

/-- `JSON.parse` reads what Go encoded. -/
theorem json_parse_encodeLine {v : GoJson.Value} (numbered : Numbered v) :
    (receiveText (encodeLine v)).bind Json.parse = some (jsValue (shown v)) :=
  json_parse_prints (prints_marshal isBlank_compact numbered 0).endLine

/-! ### Objects whose properties have names -/

/-- An integer of a program. -/
def number (n : Int) : Json.Value := .number (Doubles.ofInt n)

/-- An object of a program: its properties in the order in which it has them. -/
def object (members : List (String × Json.Value)) : Json.Value :=
  .object (members.map fun m => (utf16 m.1, m.2))

/-- The names of an object: no two are the same, and none is an array index. -/
structure AreNames (names : List String) : Prop where
  distinct : (names.map utf16).Nodup
  words : ∀ name ∈ names, Json.arrayIndex (utf16 name) = none

theorem listed_eq_self {α : Type} {members : List (Text × α)}
    (words : ∀ m ∈ members, Json.arrayIndex m.1 = none) : listed members = members := by
  have indices : members.filter (fun m => (Json.arrayIndex m.1).isSome) = [] := by
    apply List.filter_eq_nil_iff.mpr
    intro m member
    rw [words m member]
    decide
  have others : members.filter (fun m => (Json.arrayIndex m.1).isNone) = members := by
    apply List.filter_eq_self.mpr
    intro m member
    rw [words m member]
    rfl
  rw [listed, indices, others, List.mergeSort_nil, List.nil_append]

theorem written_object {members : List (String × Json.Value)}
    (names : AreNames (members.map Prod.fst)) : written (object members) =
      .object ((members.filter (·.2 ≠ .undefined)).map fun m => (utf16 m.1, written m.2)) := by
  have shown : writtenMembers (members.map fun m => (utf16 m.1, m.2)) =
      (members.filter (·.2 ≠ .undefined)).map fun m => (utf16 m.1, written m.2) := by
    rw [writtenMembers_eq, List.filter_map, List.map_map]
    rfl
  rw [object, written, shown, listed_eq_self]
  intro m member
  obtain ⟨n, inside, rfl⟩ := List.mem_map.mp member
  exact names.words n.1 (List.mem_map_of_mem (List.mem_filter.mp inside).1)

/-- What Go reads of an object: the properties that are there. -/
theorem goValue_object {members : List (String × Json.Value)}
    (names : AreNames (members.map Prod.fst)) : goValue (written (object members)) =
      .object ((members.filter (·.2 ≠ .undefined)).map fun m => (m.1, goValue (written m.2))) := by
  rw [written_object names, goValue, goMembers_eq, List.map_map]
  congr 1
  apply List.map_congr_left
  intro m member
  rw [Function.comp_apply, goString_utf16]

theorem held_object {members : List (String × Json.Value)} (names : AreNames (members.map Prod.fst))
    (held : ∀ m ∈ members, JsonRoundTrip.Held m.2) : JsonRoundTrip.Held (object members) := by
  have distinct := names.distinct
  refine .object ?_ fun m member => ?_
  · rw [List.map_map] at distinct ⊢
    exact distinct
  · obtain ⟨n, inside, rfl⟩ := List.mem_map.mp member
    exact held n inside

theorem held_string (t : Text) : JsonRoundTrip.Held (.string t) := .primitive (by simp)

theorem membersDepth_le {members : List (Text × Document)} {depth : Nat}
    (each : ∀ m ∈ members, m.2.depth ≤ depth) : membersDepth members ≤ depth := by
  induction members with
  | nil => exact Nat.zero_le depth
  | cons m rest ih =>
    rw [List.forall_mem_cons] at each
    exact Nat.max_le.mpr ⟨each.1, ih each.2⟩

theorem elementsDepth_le {elements : List Document} {depth : Nat}
    (each : ∀ d ∈ elements, d.depth ≤ depth) : elementsDepth elements ≤ depth := by
  induction elements with
  | nil => exact Nat.zero_le depth
  | cons d rest ih =>
    rw [List.forall_mem_cons] at each
    exact Nat.max_le.mpr ⟨each.1, ih each.2⟩

theorem depth_object {members : List (String × Json.Value)} {depth : Nat}
    (names : AreNames (members.map Prod.fst)) (each : ∀ m ∈ members, (written m.2).depth ≤ depth) :
    (written (object members)).depth ≤ depth + 1 := by
  rw [written_object names, Document.depth]
  apply Nat.succ_le_succ
  apply membersDepth_le
  intro m member
  obtain ⟨n, inside, rfl⟩ := List.mem_map.mp member
  exact each n (List.mem_filter.mp inside).1

theorem utf16_injective {s s' : String} (same : utf16 s = utf16 s') : s = s' := by
  rw [← goString_utf16 s, same, goString_utf16]

/-- What JavaScript reads of an object that Go wrote. -/
theorem jsValue_object {members : List (String × GoJson.Value)}
    (distinct : (members.map Prod.fst).Nodup) : jsValue (shown (.object members)) =
      object (members.map fun m => (m.1, jsValue (shown m.2))) := by
  have names : ((members.map fun m => (utf16 m.1, jsValue (shown m.2))).map Prod.fst).Nodup := by
    have keys : ((members.map Prod.fst).map utf16).Nodup :=
      List.pairwise_map.mpr (distinct.imp fun different same => different (utf16_injective same))
    rw [List.map_map] at keys ⊢
    exact keys
  have kept : (members.map fun m => (utf16 m.1, jsValue (shown m.2))).foldl
      (fun done m => Json.setMember done m.1 m.2) [] =
        members.map fun m => (utf16 m.1, jsValue (shown m.2)) :=
    JsonRoundTrip.foldl_setMember names
  rw [shown, shownMembers_eq, jsValue, jsMembers_eq, List.map_map, object, List.map_map]
  exact congrArg Json.Value.object kept

/-- A property of an object, by its name. -/
theorem get_object (members : List (String × Json.Value)) (name : String) :
    (object members).get name =
      ((members.find? fun m => m.1 = name).map Prod.snd).getD .undefined := by
  have found : (members.map fun m => (utf16 m.1, m.2)).find? (fun m => m.1 = utf16 name) =
      (members.find? fun m => m.1 = name).map fun m => (utf16 m.1, m.2) := by
    rw [List.find?_map]
    congr 2
    funext m
    exact decide_eq_decide.mpr ⟨utf16_injective, congrArg utf16⟩
  rw [object, Json.Value.get, found, Option.map_map]
  rfl

end Hwfa.JsonWriters
