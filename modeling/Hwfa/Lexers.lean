/-!
Lexers that take one unit at a time.

A lexer keeps a state from one unit to the next and gives tokens as it goes on;
what is still open at the end of a text is finished then.  A run over a text is
that over its parts one after the other (`Run.append`).
-/

namespace Hwfa.Lexers

universe u v

/-- What a unit does in a state, and what the end does. -/
structure Lexer (α : Type u) (σ τ : Type v) where
  read : σ → α → Option (List τ × σ)
  finish : σ → Option (List τ)

variable {α : Type u} {σ τ : Type v}

/-- The tokens of a text, from a state. -/
def Lexer.lex (lexer : Lexer α σ τ) : σ → List α → Option (List τ)
  | state, [] => lexer.finish state
  | state, a :: rest => do
    let (tokens, next) ← lexer.read state a
    let more ← lexer.lex next rest
    return tokens ++ more

/-- From one state over a text to another, giving tokens. -/
def Run (lexer : Lexer α σ τ) (state : σ) (text : List α) (tokens : List τ) (final : σ) : Prop :=
  ∀ rest, lexer.lex state (text ++ rest) = (lexer.lex final rest).map (tokens ++ ·)

variable {lexer : Lexer α σ τ} {state middle final : σ} {text text' : List α} {tokens tokens' : List τ} {a : α}

theorem Run.nil (state : σ) : Run lexer state [] [] state := by
  intro rest
  simp

theorem Run.one (read : lexer.read state a = some (tokens, final)) :
    Run lexer state [a] tokens final := by
  intro rest
  simp only [List.singleton_append, Lexer.lex, read, Option.bind_eq_bind, Option.bind_some]
  cases lexer.lex final rest <;> rfl

theorem Run.append (first : Run lexer state text tokens middle)
    (second : Run lexer middle text' tokens' final) :
    Run lexer state (text ++ text') (tokens ++ tokens') final := by
  intro rest
  rw [List.append_assoc, first, second, Option.map_map]
  congr 1
  funext more
  exact (List.append_assoc tokens tokens' more).symm

theorem Run.cons (read : lexer.read state a = some (tokens, middle))
    (second : Run lexer middle text tokens' final) :
    Run lexer state (a :: text) (tokens ++ tokens') final :=
  (Run.one read).append second

/-- Units that give no token and change the state one by one. -/
theorem Run.each (states : List α → σ) (done text : List α)
    (read : ∀ seen, ∀ b ∈ text, lexer.read (states seen) b = some ([], states (seen ++ [b]))) :
    Run lexer (states done) text [] (states (done ++ text)) := by
  induction text generalizing done with
  | nil =>
    rw [List.append_nil]
    exact Run.nil _
  | cons b text ih =>
    have more := ih (done ++ [b]) fun seen c member => read seen c (List.mem_cons_of_mem b member)
    rw [List.append_assoc] at more
    exact Run.cons (read done b List.mem_cons_self) more

/-- A unit that begins what the units behind it go on with. -/
theorem Run.begins {states : List α → σ} (begun : lexer.read state a = some ([], states [a]))
    (read : ∀ seen, ∀ b ∈ text, lexer.read (states seen) b = some ([], states (seen ++ [b]))) :
    Run lexer state (a :: text) [] (states (a :: text)) :=
  Run.cons begun (Run.each states [a] text read)

/-- A text that is run over to where nothing is open. -/
theorem Run.lex (run : Run lexer state text tokens final) (closed : lexer.finish final = some []) :
    lexer.lex state text = some tokens := by
  have whole := run []
  rw [List.append_nil] at whole
  simp [whole, Lexer.lex, closed]

/-- What is still open in a state is finished by a unit that would begin anew. -/
theorem lex_finished (between : σ) (closed : lexer.finish between = some [])
    (finished : lexer.finish state = some tokens) {rest : List α}
    (goes_on : ∀ a ∈ rest.head?,
      lexer.read state a = (lexer.read between a).map fun r => (tokens ++ r.1, r.2)) :
    lexer.lex state rest = (lexer.lex between rest).map (tokens ++ ·) := by
  cases rest with
  | nil => rw [Lexer.lex, Lexer.lex, finished, closed, Option.map_some, List.append_nil]
  | cons a more =>
    rw [Lexer.lex, Lexer.lex, goes_on a rfl]
    cases lexer.read between a with
    | none => rfl
    | some read =>
      simp only [Option.map_some, Option.bind_eq_bind, Option.bind_some, Option.pure_def]
      cases lexer.lex read.2 more with
      | none => rfl
      | some behind =>
        simp only [Option.bind_some, Option.map_some]
        rw [List.append_assoc]

/-- What a text gives, and the state behind it. -/
def Lexer.feed (lexer : Lexer α σ τ) : σ → List α → Option (List τ × σ)
  | state, [] => some ([], state)
  | state, a :: rest => do
    let (tokens, next) ← lexer.read state a
    let (more, final) ← lexer.feed next rest
    return (tokens ++ more, final)

/-- A text is fed up to any place of it. -/
theorem lex_append (text rest : List α) : lexer.lex state (text ++ rest) =
    (lexer.feed state text).bind fun fed => (lexer.lex fed.2 rest).map (fed.1 ++ ·) := by
  induction text generalizing state with
  | nil => simp [Lexer.feed]
  | cons a text ih =>
    rw [List.cons_append, Lexer.lex, Lexer.feed]
    cases lexer.read state a with
    | none => rfl
    | some read =>
      simp only [Option.bind_eq_bind, Option.bind_some, Option.pure_def, ih, Option.bind_assoc]
      refine Option.bind_congr fun fed _ => ?_
      cases lexer.lex fed.2 rest with
      | none => rfl
      | some behind => simp

end Hwfa.Lexers
