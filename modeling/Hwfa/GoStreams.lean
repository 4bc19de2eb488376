import Hwfa.GoStructs

/-!
`json.NewDecoder(r).Decode(&v)`: the first value of a stream, and slices that are filled
again.

The decoder stops where a value ends and leaves the rest of the stream alone.  A member
that comes twice fills its field twice: in a slice the second array is stored on top of
the first, and what is behind its end is still there for a third.
-/

namespace Hwfa.GoStreams

open Hwfa.GoJson (Bytes Expecting Frame Lexing Scalar Token Value beginValue lexer parse)
open Hwfa.GoStructs
open Hwfa.Lexers (Lexer lex_append)

/-! ### The first value -/

def firstFrom (seen : Bytes) : Bytes → Option Value
  | [] => parse seen
  | b :: rest => (parse seen).or (firstFrom (seen ++ [b]) rest)

/-- The shortest beginning of a stream that is a value.  Of a number it takes too little,
but there is no number that a struct takes. -/
def firstValue (data : Bytes) : Option Value := firstFrom [] data

/-- `Decode`, into a new variable. -/
def decode {α : Type} (c : Codec α) (data : Bytes) : Option α :=
  (firstValue data).bind (c.store c.zero)

variable {state : Lexing} {tokens : List Token}

/-- In the middle of a word or a number. -/
def Scans : Lexing → Prop
  | .word _ | .numeral _ => True
  | _ => False

theorem finish_scans (scans : Scans state) (finished : lexer.finish state = some tokens) :
    ∃ v, tokens = [.scalar v] := by
  cases state with
  | word letters =>
    obtain ⟨v, _, rfl⟩ := Option.map_eq_some_iff.mp finished
    exact ⟨v, rfl⟩
  | numeral literal =>
    obtain ⟨_, same⟩ := Option.ite_none_right_eq_some.mp finished
    cases same
    exact ⟨_, rfl⟩
  | _ => exact scans.elim

/-- Nothing is open at the end of a text, unless a word or a number. -/
theorem between_or_scans (finished : lexer.finish state = some tokens) :
    (state = .between ∧ tokens = []) ∨ Scans state := by
  cases state with
  | between =>
    cases finished
    exact .inl ⟨rfl, rfl⟩
  | word letters => exact .inr trivial
  | numeral literal => exact .inr trivial
  | _ => cases finished

/-- Where a byte ends a word or a number, its scalar comes first. -/
theorem ended_scans {b : UInt8} {final : Lexing} (scans : Scans state)
    (read : (do
      let done ← state.finish
      let begun ← GoJson.beginToken b
      return (done ++ begun.1, begun.2)) = some (tokens, final)) :
    ∃ v more, tokens = .scalar v :: more := by
  simp only [Option.bind_eq_bind, Option.bind_eq_some_iff, Option.pure_def, Option.some.injEq,
    Prod.mk.injEq] at read
  obtain ⟨done, finished, begun, _, rfl, _⟩ := read
  obtain ⟨v, rfl⟩ := finish_scans scans finished
  exact ⟨v, begun.1, rfl⟩

/-- One more byte goes on with a word or a number, or it ends it. -/
theorem read_scans {b : UInt8} {final : Lexing} (scans : Scans state)
    (read : lexer.read state b = some (tokens, final)) :
    (tokens = [] ∧ Scans final) ∨ ∃ v more, tokens = .scalar v :: more := by
  change Lexing.read state b = some (tokens, final) at read
  cases state with
  | word letters =>
    unfold Lexing.read at read
    dsimp only at read
    split at read
    · cases read
      exact .inl ⟨rfl, trivial⟩
    · exact .inr (ended_scans scans read)
  | numeral literal =>
    unfold Lexing.read at read
    dsimp only at read
    split at read
    · cases read
      exact .inl ⟨rfl, trivial⟩
    · exact .inr (ended_scans scans read)
  | _ => exact scans.elim

/-- In the middle of a word or a number, the next token is a scalar. -/
theorem lex_scans {rest : Bytes} (scans : Scans state) (read : lexer.lex state rest = some tokens) :
    ∃ v more, tokens = .scalar v :: more := by
  induction rest generalizing state tokens with
  | nil =>
    obtain ⟨v, rfl⟩ := finish_scans scans read
    exact ⟨v, [], rfl⟩
  | cons b rest ih =>
    simp only [Lexer.lex, Option.bind_eq_bind, Option.bind_eq_some_iff, Option.pure_def,
      Option.some.injEq] at read
    obtain ⟨⟨now, later⟩, one, behind, others, rfl⟩ := read
    rcases read_scans scans one with ⟨rfl, on⟩ | ⟨v, more, rfl⟩
    · exact ih on others
    · exact ⟨v, more ++ behind, rfl⟩

/-- A scalar is a whole text only by itself. -/
theorem whole_of_scalar {e : Expecting} {v : Value} {x : Scalar}
    (step : Expecting.step e (.scalar x) = some (.separator [] v)) : e = .element [] := by
  cases e with
  | element stack =>
    cases step
    rfl
  | elementOrClose stack => cases step
  | keyOrClose stack => cases x <;> cases step
  | key stack done => cases x <;> cases step
  | colon stack done key => cases step
  | separator stack held =>
    cases stack with
    | nil => cases step
    | cons frame stack => cases frame <;> cases step

/-- Behind a whole text there is nothing more. -/
theorem step_whole (v : Value) (token : Token) :
    Expecting.step (.separator [] v) token = none := by
  cases token <;> rfl

theorem nil_of_foldlM {v w : Value} (read : tokens.foldlM Expecting.step (.separator [] v) =
    some (.separator [] w)) : tokens = [] ∧ w = v := by
  cases tokens with
  | nil =>
    cases read
    exact ⟨rfl, rfl⟩
  | cons token rest =>
    rw [List.foldlM_cons, step_whole] at read
    cases read

theorem parse_iff {data : Bytes} {v : Value} : parse data = some v ↔
    ∃ tokens, lexer.lex .between data = some tokens ∧
      tokens.foldlM Expecting.step (.element []) = some (.separator [] v) := by
  simp only [parse, Option.bind_eq_bind, Option.bind_eq_some_iff]
  constructor
  · rintro ⟨tokens, lexed, e, read, whole⟩
    refine ⟨tokens, lexed, ?_⟩
    rw [read]
    split at whole
    · cases whole
      rfl
    · cases whole
  · rintro ⟨tokens, lexed, read⟩
    exact ⟨tokens, lexed, _, read, rfl⟩

/-- If a text is an object, then so is every beginning of it that is a value at all. -/
theorem parse_beginning {seen rest : Bytes} {v : Value} {members : List (String × Value)}
    (first : parse seen = some v) (whole : parse (seen ++ rest) = some (.object members)) :
    v = .object members := by
  obtain ⟨tokens, lexed, read⟩ := parse_iff.mp first
  obtain ⟨all, lexed_all, read_all⟩ := parse_iff.mp whole
  rw [← List.append_nil seen, lex_append] at lexed
  rw [lex_append] at lexed_all
  cases fed : lexer.feed .between seen with
  | none =>
    rw [fed] at lexed
    cases lexed
  | some before =>
    rw [fed, Option.bind_some] at lexed lexed_all
    obtain ⟨ending, finished, rfl⟩ := Option.map_eq_some_iff.mp lexed
    obtain ⟨behind, others, rfl⟩ := Option.map_eq_some_iff.mp lexed_all
    rw [List.foldlM_append, Option.bind_eq_bind, Option.bind_eq_some_iff] at read read_all
    obtain ⟨e, so_far, read⟩ := read
    obtain ⟨e', so_far', read_all⟩ := read_all
    rw [so_far] at so_far'
    cases so_far'
    rcases between_or_scans finished with ⟨_, rfl⟩ | scans
    · cases read
      exact (nil_of_foldlM read_all).2.symm
    · -- a scalar alone, and what begins with a scalar is no object
      obtain ⟨x, rfl⟩ := finish_scans scans finished
      obtain ⟨y, more, rfl⟩ := lex_scans scans others
      rw [List.foldlM_cons, Option.bind_eq_bind, Option.bind_eq_some_iff] at read
      obtain ⟨last, step, same⟩ := read
      cases same
      obtain rfl := whole_of_scalar step
      rw [List.foldlM_cons] at read_all
      have nothing := nil_of_foldlM (v := .scalar y) read_all
      cases nothing.2

theorem firstFrom_of_parse {seen rest : Bytes} {members : List (String × Value)}
    (whole : parse (seen ++ rest) = some (.object members)) :
    firstFrom seen rest = some (.object members) := by
  induction rest generalizing seen with
  | nil =>
    rw [List.append_nil] at whole
    exact whole
  | cons b rest ih =>
    rw [firstFrom]
    cases first : parse seen with
    | none =>
      rw [Option.none_or]
      apply ih
      rw [List.append_assoc]
      exact whole
    | some v => rw [parse_beginning first whole, Option.some_or]

/-- An object that is alone on its stream is what is decoded. -/
theorem decode_of_parse {α : Type} {c : Codec α} {data : Bytes} {members : List (String × Value)}
    (whole : parse data = some (.object members)) :
    decode c data = c.store c.zero (.object members) := by
  have first : firstValue data = some (.object members) := firstFrom_of_parse whole
  rw [decode, first, Option.bind_some]

/-! ### Slices that are filled again -/

/-- A slice, and what its array holds behind its end. -/
structure Slice (α : Type) where
  elements : List α := []
  behind : List α := []

variable {α : Type}

/-- The elements are stored in what the array holds, as far as it goes. -/
def refill (c : Codec α) : List α → List Value → Option (Slice α)
  | cells, [] => some ⟨[], cells⟩
  | cells, v :: rest => do
    let a ← c.store (cells.headD c.zero) v
    let filled ← refill c cells.tail rest
    return ⟨a :: filled.elements, filled.behind⟩

/-- A slice of a variable that the decoder fills; an array without elements, like `null`,
makes a new one. -/
def reused (c : Codec α) : Codec (Slice α) where
  zero := {}
  encode held := .array (held.elements.map c.encode)
  store held
    | .scalar .null => some {}
    | .array elements =>
      if elements.isEmpty then some {} else refill c (held.elements ++ held.behind) elements
    | _ => none

theorem refill_nil (c : Codec α) (elements : List Value) :
    refill c [] elements = (elements.mapM (c.store c.zero)).map fun filled => ⟨filled, []⟩ := by
  induction elements with
  | nil => rfl
  | cons v rest ih =>
    rw [refill, List.mapM_cons, List.headD_nil, List.tail_nil, ih]
    cases c.store c.zero v with
    | none => rfl
    | some a =>
      simp only [Option.bind_eq_bind, Option.bind_some, Option.pure_def]
      cases rest.mapM (c.store c.zero) <;> rfl

/-- A new slice takes the elements of its array. -/
theorem store_reused (c : Codec α) (elements : List Value) : (reused c).store {} (.array elements) =
    (elements.mapM (c.store c.zero)).map fun filled => ⟨filled, []⟩ := by
  cases elements with
  | nil => rfl
  | cons v rest => exact refill_nil c (v :: rest)

end Hwfa.GoStreams
