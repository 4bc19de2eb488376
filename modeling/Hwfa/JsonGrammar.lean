import Hwfa.JsonRoundTrip

/-!
The grammar of JSON, apart from the programs that write it and read it.

A document is what a text says: a number is its literal, a string its code units, and
an object keeps the order and the repetitions of its members.  `Document.lexemes` takes
a document apart, and `Spells` says which texts spell lexemes, with any space between
them and any escapes in a string.  A lexer that is right about single lexemes
(`Understands`) reads every spelling, so a writer that spells and a reader that
understands need not know of each other.
-/

namespace Hwfa.JsonGrammar

open Hwfa.Json (Text isLeading isTrailing unit)
open Hwfa.Lexers (Lexer Run)

/-! ### Lexemes -/

inductive Mark where
  | openArray
  | closeArray
  | openObject
  | closeObject
  | colon
  | comma
  deriving DecidableEq

def Mark.char : Mark → Char
  | .openArray => '['
  | .closeArray => ']'
  | .openObject => Char.ofNat 0x7B
  | .closeObject => Char.ofNat 0x7D
  | .colon => ':'
  | .comma => ','

inductive Word where
  | null
  | boolean (b : Bool)
  deriving DecidableEq

def Word.chars : Word → List Char
  | .null => ['n', 'u', 'l', 'l']
  | .boolean true => ['t', 'r', 'u', 'e']
  | .boolean false => ['f', 'a', 'l', 's', 'e']

inductive Lexeme where
  | mark (m : Mark)
  | word (w : Word)
  | number (literal : List Char)
  | string (t : Text)

def IsSpace (c : Char) : Prop := c = '\t' ∨ c = '\n' ∨ c = '\r' ∨ c = ' '

/-- A word or a number ends before this. -/
def Ends (cs : List Char) : Prop := ∀ c ∈ cs.head?, IsSpace c ∨ ∃ m : Mark, c = m.char

def IsNumeral (c : Char) : Prop := c.isDigit ∨ c ∈ ['-', '+', '.', 'e', 'E']

/-- The literal of a number. -/
structure IsLiteral (literal : List Char) : Prop where
  begins : ∃ c more, literal = c :: more ∧ (c = '-' ∨ c.isDigit)
  numeral : ∀ c ∈ literal, IsNumeral c
  reads : (Json.readNumber (literal.map unit)).isSome

/-- The code units of a character. -/
def units (c : Char) : Text :=
  if c.toNat < 0x10000 then [unit c]
  else
    let rest := c.toNat - 0x10000
    [UInt16.ofNat (0xD800 + rest / 0x400), UInt16.ofNat (0xDC00 + rest % 0x400)]

theorem utf16_eq (cs : List Char) : Json.utf16 (String.ofList cs) = cs.flatMap units := by
  rw [Json.utf16, String.toList_ofList]
  rfl

/-- The letters of the escapes, and what they stand for. -/
def escapes : List (Char × UInt16) :=
  [('"', 34), ('\\', 92), ('/', 47), ('b', 8), ('f', 12), ('n', 10), ('r', 13), ('t', 9)]

/-- The hexadecimal digit of a number below 16, in lower case. -/
def hexChar (n : Nat) : Char := Char.ofNat (if n < 10 then 48 + n else 87 + n)

/-- What may stand between the quotes for a text. -/
inductive Literal : Text → List Char → Prop where
  | nil : Literal [] []
  | plain {t : Text} {cs : List Char} (c : Char) (visible : 0x20 ≤ c.toNat) (quote_ne : c ≠ '"')
      (backslash_ne : c ≠ '\\') (rest : Literal t cs) : Literal (units c ++ t) (c :: cs)
  | letter {t : Text} {cs : List Char} {e : Char} {u : UInt16} (known : (e, u) ∈ escapes)
      (rest : Literal t cs) : Literal (u :: t) ('\\' :: e :: cs)
  | code {t : Text} {cs : List Char} {u : UInt16} (w x y z : Nat)
      (small : w < 16 ∧ x < 16 ∧ y < 16 ∧ z < 16)
      (number : ((w * 16 + x) * 16 + y) * 16 + z = u.toNat) (rest : Literal t cs) :
      Literal (u :: t) ('\\' :: 'u' :: hexChar w :: hexChar x :: hexChar y :: hexChar z :: cs)

/-- The texts that spell lexemes. -/
inductive Spells : List Lexeme → List Char → Prop where
  | nil : Spells [] []
  | space {ls : List Lexeme} {cs : List Char} {c : Char} (blank : IsSpace c) (rest : Spells ls cs) :
      Spells ls (c :: cs)
  | mark {ls : List Lexeme} {cs : List Char} (m : Mark) (rest : Spells ls cs) :
      Spells (.mark m :: ls) (m.char :: cs)
  | string {ls : List Lexeme} {cs inside : List Char} {t : Text} (literal : Literal t inside)
      (rest : Spells ls cs) : Spells (.string t :: ls) ('"' :: (inside ++ '"' :: cs))
  | word {ls : List Lexeme} {cs : List Char} (w : Word) (ends : Ends cs) (rest : Spells ls cs) :
      Spells (.word w :: ls) (w.chars ++ cs)
  | number {ls : List Lexeme} {cs literal : List Char} (is_literal : IsLiteral literal)
      (ends : Ends cs) (rest : Spells ls cs) : Spells (.number literal :: ls) (literal ++ cs)

/-! ### Spelling one thing behind another -/

theorem Literal.append {t t' : Text} {cs cs' : List Char} (first : Literal t cs)
    (second : Literal t' cs') : Literal (t ++ t') (cs ++ cs') := by
  induction first with
  | nil => exact second
  | plain c visible quote_ne backslash_ne _ ih =>
    rw [List.append_assoc]
    exact .plain c visible quote_ne backslash_ne ih
  | letter known _ ih => exact .letter known ih
  | code w x y z small number _ ih => exact .code w x y z small number ih

theorem ends_nil : Ends [] := by
  intro c member
  cases member

theorem ends_mark (m : Mark) (cs : List Char) : Ends (m.char :: cs) := by
  intro c member
  rw [List.head?_cons, Option.mem_some] at member
  exact .inr ⟨m, member.symm⟩

theorem ends_space {c : Char} (blank : IsSpace c) (cs : List Char) : Ends (c :: cs) := by
  intro d member
  rw [List.head?_cons, Option.mem_some] at member
  rw [← member]
  exact .inl blank

theorem ends_append {cs cs' : List Char} (first : Ends cs) (second : Ends cs') : Ends (cs ++ cs') := by
  cases cs with
  | nil => exact second
  | cons c rest => exact first

/-- What is spelled last ends before whatever is spelled behind it. -/
theorem Spells.append {ls ls' : List Lexeme} {cs cs' : List Char} (first : Spells ls cs)
    (second : Spells ls' cs') (ends : Ends cs') : Spells (ls ++ ls') (cs ++ cs') := by
  induction first with
  | nil => exact second
  | space blank _ ih => exact .space blank ih
  | mark m _ ih => exact .mark m ih
  | string literal _ ih =>
    rw [List.cons_append, List.cons_append, List.append_assoc]
    exact .string literal ih
  | word w ends_first _ ih =>
    rw [List.append_assoc]
    exact .word w (ends_append ends_first ends) ih
  | number is_literal ends_first _ ih =>
    rw [List.append_assoc]
    exact .number is_literal (ends_append ends_first ends) ih

theorem Spells.spaces {ls : List Lexeme} {cs blanks : List Char} (blank : ∀ c ∈ blanks, IsSpace c)
    (rest : Spells ls cs) : Spells ls (blanks ++ cs) := by
  induction blanks with
  | nil => exact rest
  | cons c more ih =>
    rw [List.forall_mem_cons] at blank
    exact .space blank.1 (ih blank.2)

/-! ### Documents -/

inductive Document where
  | word (w : Word)
  | number (literal : List Char)
  | string (t : Text)
  | array (elements : List Document)
  | object (members : List (Text × Document))

theorem Document.induction {P : Document → Prop} (word : ∀ w, P (.word w))
    (number : ∀ literal, P (.number literal)) (string : ∀ t, P (.string t))
    (array : ∀ elements, (∀ d ∈ elements, P d) → P (.array elements))
    (object : ∀ members, (∀ m ∈ members, P m.2) → P (.object members)) (d : Document) : P d :=
  @Document.rec P (fun elements => ∀ d ∈ elements, P d) (fun members => ∀ m ∈ members, P m.2)
    (fun m => P m.2) word number string array object
    (fun _ member => absurd member List.not_mem_nil)
    (fun _ _ first rest => List.forall_mem_cons.mpr ⟨first, rest⟩)
    (fun _ member => absurd member List.not_mem_nil)
    (fun _ _ first rest => List.forall_mem_cons.mpr ⟨first, rest⟩)
    (fun _ _ value => value) d

/-- Parts with commas between them. -/
def separated : List (List Lexeme) → List Lexeme
  | [] => []
  | first :: rest => first ++ rest.flatMap (.mark .comma :: ·)

mutual

def Document.lexemes : Document → List Lexeme
  | .word w => [.word w]
  | .number literal => [.number literal]
  | .string t => [.string t]
  | .array elements =>
    .mark .openArray :: (separated (elementLexemes elements) ++ [.mark .closeArray])
  | .object members =>
    .mark .openObject :: (separated (memberLexemes members) ++ [.mark .closeObject])

def elementLexemes : List Document → List (List Lexeme)
  | [] => []
  | d :: rest => d.lexemes :: elementLexemes rest

def memberLexemes : List (Text × Document) → List (List Lexeme)
  | [] => []
  | (k, d) :: rest => (.string k :: .mark .colon :: d.lexemes) :: memberLexemes rest

end

mutual

/-- How deep the arrays and the objects of a document are nested. -/
def Document.depth : Document → Nat
  | .array elements => elementsDepth elements + 1
  | .object members => membersDepth members + 1
  | _ => 0

def elementsDepth : List Document → Nat
  | [] => 0
  | d :: rest => max d.depth (elementsDepth rest)

def membersDepth : List (Text × Document) → Nat
  | [] => 0
  | (_, d) :: rest => max d.depth (membersDepth rest)

end

theorem elementLexemes_eq (elements : List Document) :
    elementLexemes elements = elements.map Document.lexemes := by
  induction elements with
  | nil => rfl
  | cons d rest ih => rw [elementLexemes, ih, List.map_cons]

theorem memberLexemes_eq (members : List (Text × Document)) :
    memberLexemes members = members.map fun m => .string m.1 :: .mark .colon :: m.2.lexemes := by
  induction members with
  | nil => rfl
  | cons m rest ih => rw [memberLexemes, ih, List.map_cons]

theorem depth_le_elements {elements : List Document} {d : Document} (member : d ∈ elements) :
    d.depth ≤ elementsDepth elements := by
  induction elements with
  | nil => exact absurd member List.not_mem_nil
  | cons e rest ih =>
    rw [elementsDepth]
    rcases List.mem_cons.mp member with rfl | behind
    · exact Nat.le_max_left _ _
    · exact Nat.le_trans (ih behind) (Nat.le_max_right _ _)

theorem depth_le_members {members : List (Text × Document)} {m : Text × Document}
    (member : m ∈ members) : m.2.depth ≤ membersDepth members := by
  induction members with
  | nil => exact absurd member List.not_mem_nil
  | cons n rest ih =>
    rw [membersDepth]
    rcases List.mem_cons.mp member with rfl | behind
    · exact Nat.le_max_left _ _
    · exact Nat.le_trans (ih behind) (Nat.le_max_right _ _)

/-- A document is spelled by this text, and nothing else. -/
def Writes (d : Document) (cs : List Char) : Prop := Spells d.lexemes cs

/-! ### Reading what is spelled -/

section

variable {α σ τ : Type} {lexer : Lexer α σ τ} {between : σ} {encode : Char → List α}
  {token : Lexeme → τ}

/-- A lexer that is right about every lexeme, of texts in an encoding. -/
structure Understands (lexer : Lexer α σ τ) (between : σ) (encode : Char → List α)
    (token : Lexeme → τ) : Prop where
  space : ∀ {c}, IsSpace c → Run lexer between (encode c) [] between
  mark : ∀ m : Mark, Run lexer between (encode m.char) [token (.mark m)] between
  string : ∀ {t inside}, Literal t inside →
    Run lexer between (encode '"' ++ (inside.flatMap encode ++ encode '"')) [token (.string t)] between
  word : ∀ (w : Word) {rest}, Ends rest →
    lexer.lex between (w.chars.flatMap encode ++ rest.flatMap encode) =
      (lexer.lex between (rest.flatMap encode)).map (token (.word w) :: ·)
  number : ∀ {literal rest}, IsLiteral literal → Ends rest →
    lexer.lex between (literal.flatMap encode ++ rest.flatMap encode) =
      (lexer.lex between (rest.flatMap encode)).map (token (.number literal) :: ·)
  finish : lexer.finish between = some []

/-- It reads the lexemes of every text that spells them. -/
theorem Understands.lex_spells (understands : Understands lexer between encode token)
    {ls : List Lexeme} {cs : List Char} (spells : Spells ls cs) :
    lexer.lex between (cs.flatMap encode) = some (ls.map token) := by
  induction spells with
  | nil => exact understands.finish
  | space blank _ ih =>
    rw [List.flatMap_cons, understands.space blank, ih]
    rfl
  | mark m _ ih =>
    rw [List.flatMap_cons, understands.mark m, ih]
    rfl
  | string literal _ ih =>
    have whole := understands.string literal
    rw [List.flatMap_cons, List.flatMap_append, List.flatMap_cons, ← List.append_assoc,
      ← List.append_assoc, List.append_assoc (encode '"'), whole, ih]
    rfl
  | word w ends _ ih =>
    rw [List.flatMap_append, understands.word w ends, ih]
    rfl
  | number is_literal ends _ ih =>
    rw [List.flatMap_append, understands.number is_literal ends, ih]
    rfl

end

end Hwfa.JsonGrammar
