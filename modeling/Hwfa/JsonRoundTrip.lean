import Hwfa.JsonInterchange

/-!
What `JSON.stringify` writes, `JSON.parse` reads back: the value itself, up to what
JSON cannot say (`Json.reread`).

The text of a value is read to tokens wherever it stands in a longer text, and those
tokens are parsed to the value wherever they stand among others.  Both are shown of a
value from the same of its parts.
-/

namespace Hwfa.JsonRoundTrip

open Hwfa.Json (Expecting Lexing Number Text Token Value decimal escape escapeUnit inNumeral isDigit
  isLeading isLower isTrailing join one quote reread setMember stringify unit utf16)
open Hwfa.JsonInterchange (IsPlain lexer run_plain)
open Hwfa.Lexers (Run)

/-! ### Strings -/

/-- The digit of a code, as `escapeUnit` writes it. -/
def hexLetter (d : UInt16) : UInt16 := if d < 10 then unit '0' + d else unit 'a' + (d - 10)

theorem hexDigit_hexLetter {d : UInt16} (small : d.toNat < 16) :
    Json.hexDigit (hexLetter d) = some d.toNat := by
  have all : ∀ n : Fin 16, Json.hexDigit (hexLetter (UInt16.ofNat n)) = some n.val := by decide
  have here := all ⟨d.toNat, small⟩
  rw [UInt16.ofNat_toNat] at here
  exact here

/-- A digit of a code that is not the last one. -/
theorem read_hexLetter {d : UInt16} (small : d.toNat < 16) (done : Text) {digits : List Nat}
    (more : digits.length < 3) :
    lexer.read (.hex done digits) (hexLetter d) = some ([], .hex done (digits ++ [d.toNat])) := by
  change Lexing.read (.hex done digits) (hexLetter d) = _
  rw [Lexing.read]
  simp only [hexDigit_hexLetter small, Option.bind_eq_bind, Option.bind_some]
  split
  · simp at more
  · rfl

theorem read_lastLetter {d : UInt16} (small : d.toNat < 16) (done : Text) (x y z : Nat) :
    lexer.read (.hex done [x, y, z]) (hexLetter d) =
      some ([], .quoted (done ++ [UInt16.ofNat (((x * 16 + y) * 16 + z) * 16 + d.toNat)])) := by
  change Lexing.read (.hex done [x, y, z]) (hexLetter d) = _
  simp only [Lexing.read, hexDigit_hexLetter small, Option.bind_eq_bind, Option.bind_some]
  rfl

theorem run_hexDigits (u : UInt16) (done : Text) :
    Run lexer (.hex done []) (Json.hexDigits u) [] (.quoted (done ++ [u])) := by
  have range := u.toNat_lt
  have first : (u / 0x1000).toNat = u.toNat / 0x1000 := rfl
  have second : (u / 0x100 % 0x10).toNat = u.toNat / 0x100 % 0x10 := rfl
  have third : (u / 0x10 % 0x10).toNat = u.toNat / 0x10 % 0x10 := rfl
  have fourth : (u % 0x10).toNat = u.toNat % 0x10 := rfl
  have number : (((u / 0x1000).toNat * 16 + (u / 0x100 % 0x10).toNat) * 16 +
      (u / 0x10 % 0x10).toNat) * 16 + (u % 0x10).toNat = u.toNat := by omega
  have last := read_lastLetter (d := u % 0x10) (by omega) done (u / 0x1000).toNat
    (u / 0x100 % 0x10).toNat (u / 0x10 % 0x10).toNat
  rw [number, UInt16.ofNat_toNat] at last
  exact Run.cons (read_hexLetter (by omega) done (by simp)) (Run.cons
    (read_hexLetter (by omega) done (by simp)) (Run.cons (read_hexLetter (by omega) done (by simp))
      (Run.one last)))

theorem run_escapeUnit (u : UInt16) (done : Text) :
    Run lexer (.quoted done) (escapeUnit u) [] (.quoted (done ++ [u])) := by
  have backslash : lexer.read (.quoted done) (unit '\\') = some ([], .escaped done) := rfl
  have letter {e : UInt16} (meaning : lexer.read (.escaped done) e =
      some ([], .quoted (done ++ [u]))) :
      Run lexer (.quoted done) [unit '\\', e] [] (.quoted (done ++ [u])) :=
    Run.cons backslash (Run.one meaning)
  unfold escapeUnit
  split
  · next same => subst same; exact letter rfl
  split
  · next same => subst same; exact letter rfl
  split
  · next same => subst same; exact letter rfl
  split
  · next same => subst same; exact letter rfl
  split
  · next same => subst same; exact letter rfl
  split
  · next same => rcases same with rfl | rfl <;> exact letter rfl
  split
  · have begun : lexer.read (.escaped done) (unit 'u') = some ([], .hex done []) := rfl
    exact Run.cons backslash (Run.cons begun (run_hexDigits u done))
  · next others plain =>
    apply run_plain done
    intro v member
    rw [List.mem_singleton] at member
    subst member
    exact ⟨fun same => others (.inl same), fun same => others (.inr same),
      fun control => plain (.inl control)⟩

theorem isPlain_of_large {u : UInt16} (large : 0xD800 ≤ u) : IsPlain u := by
  rw [UInt16.le_iff_toNat_le] at large
  have bound : (0xD800 : UInt16).toNat = 55296 := rfl
  refine ⟨?_, ?_, ?_⟩
  · rintro rfl
    exact absurd large (by decide)
  · rintro rfl
    exact absurd large (by decide)
  · rw [UInt16.lt_iff_toNat_lt]
    have space : (0x20 : UInt16).toNat = 32 := rfl
    omega

theorem run_escape (t done : Text) :
    Run lexer (.quoted done) (escape t) [] (.quoted (done ++ t)) := by
  induction t using Json.escape.induct generalizing done with
  | case1 =>
    rw [List.append_nil]
    exact Run.nil _
  | case2 u => exact run_escapeUnit u done
  | case3 u v rest pair ih =>
    obtain ⟨leads, trails⟩ := pair
    have both : ∀ w ∈ [u, v], IsPlain w := by
      rw [isLeading, Bool.and_eq_true, decide_eq_true_eq] at leads
      rw [isTrailing, Bool.and_eq_true, decide_eq_true_eq] at trails
      intro w member
      rw [List.mem_cons, List.mem_singleton] at member
      rcases member with rfl | rfl
      · exact isPlain_of_large leads.1
      · exact isPlain_of_large (UInt16.le_trans (by decide) trails.1)
    have run := (run_plain done both).append (ih (done ++ [u, v]))
    rw [List.append_assoc] at run
    rw [escape, if_pos ⟨leads, trails⟩]
    exact run
  | case4 u v rest alone ih =>
    have run := (run_escapeUnit u done).append (ih (done ++ [u]))
    rw [List.append_assoc] at run
    rw [escape, if_neg alone]
    exact run

/-- Whatever a text holds, its quotation is one string. -/
theorem run_quote (t : Text) : Run lexer .between (quote t) [.scalar (.string t)] .between := by
  have opened : lexer.read .between (unit '"') = some ([], .quoted []) := rfl
  have closed : lexer.read (.quoted t) (unit '"') = some ([.scalar (.string t)], .between) := rfl
  exact Run.cons opened ((run_escape t []).append (Run.one closed))

/-! ### Texts that are read to tokens -/

/-- A word or a number ends before this. -/
def Ends (rest : Text) : Prop := ∀ u ∈ rest.head?, isLower u = false ∧ inNumeral u = false

/-- Wherever a value ends, this text is read to these tokens. -/
def Reads (text : Text) (tokens : List Token) : Prop :=
  ∀ rest, Ends rest →
    lexer.lex .between (text ++ rest) = (lexer.lex .between rest).map (tokens ++ ·)

theorem ends_cons {u : UInt16} (ends : isLower u = false ∧ inNumeral u = false) (rest : Text) :
    Ends (u :: rest) := by
  intro v member
  rw [List.head?_cons, Option.mem_some] at member
  rw [← member]
  exact ends

theorem reads_of_run {text : Text} {tokens : List Token} (run : Run lexer .between text tokens .between) :
    Reads text tokens := fun rest _ => run rest

/-- What is still open where a word or a number ends is finished there. -/
theorem lex_pending {state : Lexing} {tokens : List Token} (finished : state.finish = some tokens)
    {rest : Text} (goes_on : ∀ u ∈ rest.head?,
      lexer.read state u = (lexer.read .between u).map fun r => (tokens ++ r.1, r.2)) :
    lexer.lex state rest = (lexer.lex .between rest).map (tokens ++ ·) := by
  cases rest with
  | nil =>
    change state.finish = (some []).map (tokens ++ ·)
    rw [finished, Option.map_some, List.append_nil]
  | cons u more =>
    rw [Lexers.Lexer.lex, Lexers.Lexer.lex, goes_on u rfl]
    cases lexer.read .between u with
    | none => rfl
    | some read =>
      simp only [Option.map_some, Option.bind_eq_bind, Option.bind_some, Option.pure_def]
      cases lexer.lex read.2 more with
      | none => rfl
      | some behind =>
        simp only [Option.bind_some, Option.map_some]
        rw [List.append_assoc]

theorem reads_word {text : Text} {token : Token} (run : Run lexer .between text [] (.word text))
    (word : Json.readWord text = some token) : Reads text [token] := by
  intro rest ends
  have finished : (Lexing.word text).finish = some [token] := by rw [Lexing.finish, word]; rfl
  rw [run, lex_pending finished, Option.map_map]
  · rfl
  · intro u member
    change Lexing.read (.word text) u = (Lexing.read .between u).map _
    rw [Lexing.read, Lexing.read, if_neg (by rw [(ends u member).1]; decide), finished]
    cases Json.beginToken u <;> rfl

theorem reads_numeral {text : Text} {n : Number} (run : Run lexer .between text [] (.numeral text))
    (number : Json.readNumber text = some n) : Reads text [.scalar (.number n)] := by
  intro rest ends
  have finished : (Lexing.numeral text).finish = some [.scalar (.number n)] := by
    rw [Lexing.finish, number]
    rfl
  rw [run, lex_pending finished, Option.map_map]
  · rfl
  · intro u member
    change Lexing.read (.numeral text) u = (Lexing.read .between u).map _
    rw [Lexing.read, Lexing.read, if_neg (by rw [(ends u member).2]; decide), finished]
    cases Json.beginToken u <;> rfl

/-- One text behind another, where the first ends before the second. -/
theorem Reads.append {text text' : Text} {tokens tokens' : List Token} (first : Reads text tokens)
    (second : Reads text' tokens') (ends : ∀ rest, Ends rest → Ends (text' ++ rest)) :
    Reads (text ++ text') (tokens ++ tokens') := by
  intro rest stop
  rw [List.append_assoc, first _ (ends rest stop), second rest stop, Option.map_map]
  congr 1
  funext more
  exact (List.append_assoc tokens tokens' more).symm

/-- Nothing is open behind the first text. -/
theorem Reads.behind {text text' : Text} {tokens tokens' : List Token} (second : Reads text' tokens')
    (first : Run lexer .between text tokens .between) : Reads (text ++ text') (tokens ++ tokens') := by
  intro rest stop
  rw [List.append_assoc, first, second rest stop, Option.map_map]
  congr 1
  funext more
  exact (List.append_assoc tokens tokens' more).symm

/-- A mark is a token of its own. -/
theorem Reads.mark {u : UInt16} {token : Token} {text : Text} {tokens : List Token}
    (second : Reads text tokens) (mark : lexer.read .between u = some ([token], .between)) :
    Reads (u :: text) (token :: tokens) :=
  second.behind (Run.one mark)

/-! ### Tokens that are parsed to a value -/

/-- Wherever a value may stand, these tokens are this one. -/
def Parses (tokens : List Token) (v : Value) : Prop :=
  ∀ stack more, (tokens ++ more).foldlM Expecting.step (.element stack) =
    more.foldlM Expecting.step (.separator stack v)

/-- A value does not begin with the bracket that closes an array. -/
theorem head_ne_closeArray {tokens : List Token} {stack : List Json.Frame} {e : Expecting}
    (parsed : tokens.foldlM Expecting.step (.element stack) = some e) :
    tokens.head? ≠ some .closeArray := by
  intro first
  obtain ⟨rest, rfl⟩ := List.head?_eq_some_iff.mp first
  cases parsed

theorem elementOrClose_eq {tokens : List Token} {token : Token} (first : tokens.head? = some token)
    (opens : token ≠ .closeArray) (stack : List Json.Frame) :
    tokens.foldlM Expecting.step (.elementOrClose stack) =
      tokens.foldlM Expecting.step (.element (.array [] :: stack)) := by
  obtain ⟨rest, rfl⟩ := List.head?_eq_some_iff.mp first
  rw [List.foldlM_cons, List.foldlM_cons]
  cases token with
  | closeArray => exact absurd rfl opens
  | _ => rfl

/-- A text that stands for a value. -/
def Writes (text : Text) (v : Value) : Prop := ∃ tokens, Reads text tokens ∧ Parses tokens v

theorem parse_of_writes {text : Text} {v : Value} (writes : Writes text v) :
    Json.parse text = some v := by
  obtain ⟨tokens, reads, parses⟩ := writes
  have nothing : Ends [] := by
    intro u member
    cases member
  have read : Json.lex .between text = some tokens := by
    have whole := reads [] nothing
    rw [List.append_nil] at whole
    rw [JsonInterchange.lex_eq, whole]
    change (some []).map (tokens ++ ·) = _
    rw [Option.map_some, List.append_nil]
  have parsed := parses [] []
  rw [List.append_nil] at parsed
  rw [Json.parse, read]
  simp only [Option.bind_eq_bind, Option.bind_some, parsed]
  rfl

theorem writes_scalar {text : Text} {p : Json.Primitive} (reads : Reads text [.scalar p]) :
    Writes text (.primitive p) := ⟨_, reads, fun _ _ => rfl⟩

/-! ### Arrays and objects -/

theorem join_cons (separator first second : Text) (rest : List Text) :
    join separator (first :: second :: rest) =
      first ++ (separator ++ join separator (second :: rest)) := by
  rw [join, List.intersperse_cons_cons, List.flatten_cons, List.flatten_cons]
  rfl

theorem ends_comma (rest : Text) : Ends (unit ',' :: rest) := ends_cons ⟨rfl, rfl⟩ rest

section

variable {α : Type} {text : α → Text} {value : α → Value}

/-- The elements behind the bracket that opens an array. -/
theorem writes_elements {items : List α} (some_item : items ≠ [])
    (each : ∀ a ∈ items, Writes (text a) (value a)) :
    ∃ tokens, Reads (join [unit ','] (items.map text)) tokens ∧ ∀ done stack more,
      (tokens ++ Token.closeArray :: more).foldlM Expecting.step (.element (.array done :: stack)) =
        more.foldlM Expecting.step (.separator stack (.array (done ++ items.map value))) := by
  induction items with
  | nil => exact absurd rfl some_item
  | cons a rest ih =>
    rw [List.forall_mem_cons] at each
    obtain ⟨⟨tokens, reads, parses⟩, others⟩ := each
    cases rest with
    | nil =>
      refine ⟨tokens, ?_, ?_⟩
      · rw [List.map_singleton, join, List.intersperse_singleton, List.flatten_singleton]
        exact reads
      · intro done stack more
        rw [parses]
        rfl
    | cons b rest =>
      obtain ⟨behind, reads_behind, parses_behind⟩ := ih (by simp) others
      refine ⟨tokens ++ .comma :: behind, ?_, ?_⟩
      · rw [List.map_cons, List.map_cons, join_cons]
        exact reads.append (reads_behind.mark rfl) fun more _ => ends_comma _
      · intro done stack more
        have next := parses_behind (done ++ [value a]) stack more
        rw [List.append_assoc] at next
        rw [List.append_assoc, parses]
        exact next

theorem writes_array {items : List α} (each : ∀ a ∈ items, Writes (text a) (value a)) :
    Writes (unit '[' :: join [unit ','] (items.map text) ++ [unit ']'])
      (.array (items.map value)) := by
  have closes : Reads [unit ']'] [.closeArray] := reads_of_run (Run.one rfl)
  cases items with
  | nil => exact ⟨[.openArray, .closeArray], closes.mark rfl, fun _ _ => rfl⟩
  | cons a rest =>
    obtain ⟨tokens, reads, parses⟩ := writes_elements (List.cons_ne_nil a rest) each
    have ends : ∀ more, Ends ([unit ']'] ++ more) := fun more => ends_cons ⟨rfl, rfl⟩ more
    refine ⟨.openArray :: (tokens ++ [.closeArray]), ?_, ?_⟩
    · exact (reads.append closes fun more _ => ends more).mark rfl
    · intro stack more
      have parsed := parses [] stack more
      have first := head_ne_closeArray (parses [] [] [])
      cases tokens with
      | nil => exact absurd rfl first
      | cons token behind =>
        have opens : token ≠ .closeArray := fun same => first (by rw [same]; rfl)
        change ((token :: behind ++ [Token.closeArray]) ++ more).foldlM Expecting.step
          (.elementOrClose stack) = _
        rw [List.append_assoc, elementOrClose_eq rfl opens]
        exact parsed

/-- One member: its name, a colon and its value. -/
theorem reads_member {t : Text} {tokens : List Token} (reads : Reads t tokens) (name : Text) :
    Reads (quote name ++ unit ':' :: t) (.scalar (.string name) :: .colon :: tokens) :=
  (reads.mark rfl).behind (run_quote name)

/-- The members behind the brace that opens an object. -/
theorem writes_members {name : α → Text} {items : List α} (some_item : items ≠ [])
    (each : ∀ a ∈ items, Writes (text a) (value a)) :
    ∃ first tokens, Reads (join [unit ','] (items.map fun a => quote (name a) ++ unit ':' :: text a))
        (.scalar (.string first) :: tokens) ∧ ∀ done stack more,
      (Token.scalar (.string first) :: tokens ++ Token.closeObject :: more).foldlM Expecting.step
          (.key stack done) =
        more.foldlM Expecting.step (.separator stack
          (.object (items.foldl (fun done a => setMember done (name a) (value a)) done))) := by
  induction items with
  | nil => exact absurd rfl some_item
  | cons a rest ih =>
    rw [List.forall_mem_cons] at each
    obtain ⟨⟨tokens, reads, parses⟩, others⟩ := each
    refine ⟨name a, ?_⟩
    cases rest with
    | nil =>
      refine ⟨.colon :: tokens, ?_, ?_⟩
      · rw [List.map_singleton, join, List.intersperse_singleton, List.flatten_singleton]
        exact reads_member reads (name a)
      · intro done stack more
        exact parses (.object done (name a) :: stack) (.closeObject :: more)
    | cons b rest =>
      obtain ⟨first, behind, reads_behind, parses_behind⟩ := ih (by simp) others
      refine ⟨.colon :: (tokens ++ .comma :: .scalar (.string first) :: behind), ?_, ?_⟩
      · rw [List.map_cons, List.map_cons, join_cons]
        exact (reads_member reads (name a)).append (reads_behind.mark rfl) fun more _ => ends_comma _
      · intro done stack more
        have next := parses_behind (setMember done (name a) (value a)) stack more
        have here := parses (.object done (name a) :: stack)
          (.comma :: .scalar (.string first) :: (behind ++ .closeObject :: more))
        change ((tokens ++ .comma :: .scalar (.string first) :: behind) ++
          .closeObject :: more).foldlM Expecting.step (.element (.object done (name a) :: stack)) = _
        rw [List.append_assoc]
        exact here.trans next

theorem writes_object {name : α → Text} {items : List α}
    (each : ∀ a ∈ items, Writes (text a) (value a)) :
    Writes (0x7B :: join [unit ','] (items.map fun a => quote (name a) ++ unit ':' :: text a) ++ [0x7D])
      (.object (items.foldl (fun done a => setMember done (name a) (value a)) [])) := by
  have closes : Reads [0x7D] [.closeObject] := reads_of_run (Run.one rfl)
  cases items with
  | nil => exact ⟨[.openObject, .closeObject], closes.mark rfl, fun _ _ => rfl⟩
  | cons a rest =>
    obtain ⟨first, tokens, reads, parses⟩ := writes_members (List.cons_ne_nil a rest) each
    have ends : ∀ more, Ends ([0x7D] ++ more) := fun more => ends_cons ⟨rfl, rfl⟩ more
    refine ⟨.openObject :: (.scalar (.string first) :: tokens ++ [.closeObject]), ?_, ?_⟩
    · exact (reads.append closes fun more _ => ends more).mark rfl
    · intro stack more
      have parsed := parses [] stack more
      change ((Token.scalar (.string first) :: tokens ++ [Token.closeObject]) ++ more).foldlM
        Expecting.step (.keyOrClose stack) = _
      rw [List.append_assoc]
      exact parsed

end

/-! ### Elements and members -/

/-- A member of a new name comes last. -/
theorem setMember_fresh {done : List (Text × Value)} {name : Text}
    (fresh : name ∉ done.map Prod.fst) (v : Value) : setMember done name v = done ++ [(name, v)] := by
  induction done with
  | nil => rfl
  | cons m rest ih =>
    rw [List.map_cons, List.mem_cons, not_or] at fresh
    rw [setMember, if_neg (Ne.symm fresh.1), ih fresh.2, List.cons_append]

/-- Members of different names are kept as they come. -/
theorem foldl_setMember {members : List (Text × Value)} {done : List (Text × Value)}
    (distinct : ((done ++ members).map Prod.fst).Nodup) :
    members.foldl (fun done m => setMember done m.1 m.2) done = done ++ members := by
  induction members generalizing done with
  | nil => rw [List.foldl_nil, List.append_nil]
  | cons m rest ih =>
    have fresh : m.1 ∉ done.map Prod.fst := by
      rw [List.map_append, List.nodup_append] at distinct
      intro member
      exact distinct.2.2 _ member _ (List.mem_map_of_mem List.mem_cons_self) rfl
    rw [List.foldl_cons, setMember_fresh fresh, ih, List.append_assoc]
    · rfl
    · rw [List.append_assoc]
      exact distinct

/-- Which texts come first does not depend on what they say. -/
theorem ownKeysFirst_map (f : Value → Text) (members : List (Text × Value)) :
    Json.ownKeysFirst (members.map fun m => (m.1, f m.2)) =
      (Json.indexFirst members).map fun m => (m.1, f m.2) := by
  unfold Json.ownKeysFirst Json.indexFirst
  simp only [List.filter_map, List.map_append]
  congr 1
  exact (List.map_mergeSort (f := fun m : Text × Value => (m.1, f m.2)) fun a _ b _ => rfl).symm

theorem stringifyElements_eq (elements : List Value) :
    Json.stringifyElements elements = elements.map fun v => (stringify v).getD (utf16 "null") := by
  induction elements with
  | nil => rfl
  | cons v rest ih => rw [Json.stringifyElements, ih, List.map_cons]

theorem stringify_eq_none {v : Value} : stringify v = none ↔ v = .undefined := by
  cases v with
  | primitive p =>
    cases p with
    | number n => cases n <;> simp [stringify]
    | _ => simp [stringify]
  | array elements => simp [stringify]
  | object members => simp [stringify]

theorem stringifyMembers_eq (members : List (Text × Value)) :
    Json.stringifyMembers members =
      (members.filter (·.2 ≠ .undefined)).map fun m => (m.1, (stringify m.2).getD []) := by
  induction members with
  | nil => rfl
  | cons m rest ih =>
    rw [Json.stringifyMembers]
    by_cases absent : m.2 = .undefined
    · rw [List.filter_cons_of_neg (by simpa using absent), ← ih, stringify_eq_none.mpr absent]
    · obtain ⟨t, written⟩ := Option.ne_none_iff_exists'.mp (mt stringify_eq_none.mp absent)
      rw [List.filter_cons_of_pos (by simpa using absent), List.map_cons, ← ih, written]
      rfl

/-! ### Numerals -/

theorem decimal_shape (n : Nat) : ∃ d ds, decimal n = d :: ds ∧ ∀ u ∈ d :: ds, isDigit u := by
  have digits : ∀ u ∈ decimal n, isDigit u := by
    intro u member
    obtain ⟨c, inside, rfl⟩ := List.mem_map.mp member
    exact Doubles.isDigit_unit (Nat.isDigit_of_mem_toDigits (by decide) (by decide) inside)
  cases written : decimal n with
  | nil => exact absurd (List.map_eq_nil_iff.mp written) Nat.toDigits_ne_nil
  | cons d ds => exact ⟨d, ds, rfl, written ▸ digits⟩

theorem inNumeral_of_isDigit {u : UInt16} (digit : isDigit u) : inNumeral u := by
  rw [inNumeral, digit, Bool.true_or]

/-- A number is written with a digit and with what may stand behind it. -/
theorem sizeText_shape (size : Nat) :
    ∃ d more, Json.sizeText size = d :: more ∧ isDigit d ∧ ∀ u ∈ more, inNumeral u := by
  rw [Json.sizeText]
  generalize Json.shortest size = shortest
  obtain ⟨s, point⟩ := shortest
  obtain ⟨d, ds, written, digits⟩ := decimal_shape s
  obtain ⟨e, es, exponent, exponent_digits⟩ := decimal_shape (point - 1).natAbs
  rw [List.forall_mem_cons] at digits
  obtain ⟨first, others⟩ := digits
  have behind : ∀ u ∈ ds, inNumeral u := fun u member => inNumeral_of_isDigit (others u member)
  have power : ∀ u ∈ e :: es, inNumeral u := fun u member =>
    inNumeral_of_isDigit (exponent_digits u member)
  have zeros (n : Nat) : ∀ u ∈ List.replicate n (unit '0'), inNumeral u := by
    intro u member
    rw [(List.mem_replicate.mp member).2]
    rfl
  have dot : ∀ u ∈ [unit '.'], inNumeral u := List.forall_mem_singleton.mpr rfl
  have sign (small : Bool) : ∀ u ∈ (if small then utf16 "e-" else utf16 "e+"), inNumeral u := by
    apply List.all_eq_true.mp
    cases small <;> decide
  simp only [written, exponent]
  split
  · exact ⟨d, _, List.cons_append, first, List.forall_mem_append.mpr ⟨behind, zeros _⟩⟩
  split
  · next inside =>
    obtain ⟨places, number⟩ : ∃ n, point.toNat = n + 1 := ⟨point.toNat - 1, by omega⟩
    rw [number, List.take_succ_cons, List.drop_succ_cons]
    refine ⟨d, _, rfl, first, List.forall_mem_append.mpr ⟨List.forall_mem_append.mpr ⟨?_, dot⟩, ?_⟩⟩
    · exact fun u member => behind u (List.mem_of_mem_take member)
    · exact fun u member => behind u (List.mem_of_mem_drop member)
  split
  · have lead : utf16 "0." = [unit '0', unit '.'] := rfl
    rw [lead]
    refine ⟨unit '0', _, rfl, rfl, List.forall_mem_cons.mpr ⟨rfl, ?_⟩⟩
    exact List.forall_mem_append.mpr ⟨zeros _,
      List.forall_mem_cons.mpr ⟨inNumeral_of_isDigit first, behind⟩⟩
  · have scaled := List.forall_mem_append.mpr
      ⟨sign (decide (point - 1 < 0)), power⟩
    simp only [decide_eq_true_eq] at scaled
    split
    · rw [List.append_assoc]
      exact ⟨d, _, rfl, first, List.forall_mem_append.mpr ⟨behind, scaled⟩⟩
    · rw [List.append_assoc, List.take_succ_cons, List.take_zero, List.drop_succ_cons, List.drop_zero]
      exact ⟨d, _, rfl, first, List.forall_mem_append.mpr
        ⟨List.forall_mem_cons.mpr ⟨rfl, behind⟩, scaled⟩⟩

theorem beginToken_numeral {u : UInt16} (numeral : u = unit '-' ∨ isDigit u) :
    Json.beginToken u = some ([], .numeral [u]) := by
  rcases numeral with rfl | digit
  · rfl
  · rw [isDigit, Bool.and_eq_true, decide_eq_true_eq, decide_eq_true_eq, UInt16.le_iff_toNat_le,
      UInt16.le_iff_toNat_le] at digit
    have low : 48 ≤ u.toNat := digit.1
    have high : u.toNat ≤ 57 := digit.2
    rw [← UInt16.ofNat_toNat (x := u)]
    generalize u.toNat = n at low high
    obtain rfl | rfl | rfl | rfl | rfl | rfl | rfl | rfl | rfl | rfl : n = 48 ∨ n = 49 ∨ n = 50 ∨
        n = 51 ∨ n = 52 ∨ n = 53 ∨ n = 54 ∨ n = 55 ∨ n = 56 ∨ n = 57 := by omega
    all_goals rfl

theorem run_numeral {u : UInt16} {more : Text} (first : u = unit '-' ∨ isDigit u)
    (others : ∀ v ∈ more, inNumeral v) :
    Run lexer .between (u :: more) [] (.numeral (u :: more)) := by
  have begun : lexer.read .between u = some ([], .numeral [u]) := by
    change Lexing.read .between u = _
    rw [Lexing.read, beginToken_numeral first]
    rfl
  exact Run.begins begun fun _ v member => if_pos (others v member)

theorem text_shape (quanta : Int) : ∃ u more, Number.text (.finite quanta) = u :: more ∧
    (u = unit '-' ∨ isDigit u) ∧ ∀ v ∈ more, inNumeral v := by
  obtain ⟨d, more, written, digit, others⟩ := sizeText_shape quanta.natAbs
  rw [Number.text]
  split
  · exact ⟨unit '0', [], rfl, .inr rfl, List.forall_mem_nil _⟩
  split
  · rw [written]
    exact ⟨_, _, rfl, .inl rfl, List.forall_mem_cons.mpr ⟨inNumeral_of_isDigit digit, others⟩⟩
  · rw [written]
    exact ⟨_, _, rfl, .inr digit, others⟩

theorem run_text (quanta : Int) : Run lexer .between (Number.text (.finite quanta)) []
    (.numeral (Number.text (.finite quanta))) := by
  obtain ⟨u, more, written, first, others⟩ := text_shape quanta
  rw [written]
  exact run_numeral first others

theorem run_word {u : UInt16} {more : Text}
    (begun : lexer.read .between u = some ([], .word [u])) (lower : more.all isLower) :
    Run lexer .between (u :: more) [] (.word (u :: more)) :=
  Run.begins begun fun _ v member => if_pos (List.all_eq_true.mp lower v member)

/-! ### Values -/

/-- A value as a program holds it: the properties of an object have different names, and
a number is one that its own decimal stands for. -/
inductive Held : Value → Prop where
  | primitive {p : Json.Primitive} :
    (∀ quanta, p = .number (.finite quanta) →
      Json.readNumber (Number.text (.finite quanta)) = some (.finite quanta)) →
    Held (.primitive p)
  | array {elements : List Value} : (∀ v ∈ elements, Held v) → Held (.array elements)
  | object {members : List (Text × Value)} :
    (members.map Prod.fst).Nodup → (∀ m ∈ members, Held m.2) → Held (.object members)

theorem writes_primitive {p : Json.Primitive} {t : Text} (held : Held (.primitive p))
    (written : stringify (.primitive p) = some t) : Writes t (reread (.primitive p)) := by
  have null : Writes (utf16 "null") .null :=
    writes_scalar (reads_word (run_word (u := unit 'n') rfl rfl) rfl)
  cases p with
  | undefined => cases written
  | null =>
    cases written
    exact null
  | boolean b =>
    cases written
    cases b with
    | true => exact writes_scalar (reads_word (run_word (u := unit 't') rfl rfl) rfl)
    | false => exact writes_scalar (reads_word (run_word (u := unit 'f') rfl rfl) rfl)
  | number n =>
    cases n with
    | infinite negative =>
      cases written
      exact null
    | finite quanta =>
      cases written
      cases held with
      | primitive number =>
        exact writes_scalar (reads_numeral (run_text quanta) (number quanta rfl))
  | string text =>
    cases written
    exact writes_scalar (reads_of_run (run_quote text))

theorem writes_element {v : Value} (ih : ∀ t, stringify v = some t → Writes t (reread v)) :
    Writes ((stringify v).getD (utf16 "null")) (if v = .undefined then .null else reread v) := by
  by_cases absent : v = .undefined
  · rw [if_pos absent, stringify_eq_none.mpr absent]
    exact writes_scalar (reads_word (run_word (u := unit 'n') rfl rfl) rfl)
  · obtain ⟨t, written⟩ := Option.ne_none_iff_exists'.mp (mt stringify_eq_none.mp absent)
    rw [if_neg absent, written]
    exact ih t written

/-- The members of an object as they are read back, in the order they are written in. -/
theorem reread_members (members : List (Text × Value)) (distinct : (members.map Prod.fst).Nodup) :
    (Json.indexFirst (members.filter (·.2 ≠ .undefined))).foldl
      (fun done m => setMember done m.1 (reread m.2)) [] =
      Json.indexFirst (Json.rereadMembers members) := by
  have names : ((Json.indexFirst (Json.rereadMembers members)).map Prod.fst).Nodup := by
    rw [((Json.indexFirst_perm _).map Prod.fst).nodup_iff, Json.rereadMembers_eq, List.map_map]
    exact distinct.sublist (List.filter_sublist.map Prod.fst)
  have kept : (Json.indexFirst (Json.rereadMembers members)).foldl
      (fun done m => setMember done m.1 m.2) [] = Json.indexFirst (Json.rereadMembers members) :=
    foldl_setMember names
  rw [Json.rereadMembers_eq, Json.indexFirst_map, List.foldl_map] at kept
  rw [Json.rereadMembers_eq, Json.indexFirst_map]
  exact kept

/-- What is written of a value stands for what is read back of it. -/
theorem writes_stringify {v : Value} (held : Held v) :
    ∀ t, stringify v = some t → Writes t (reread v) := by
  induction held with
  | primitive number => exact fun t written => writes_primitive (.primitive number) written
  | array _ ih =>
    intro t written
    rw [stringify, stringifyElements_eq, Option.some.injEq] at written
    rw [← written, reread, Json.rereadElements_eq]
    exact writes_array fun v inside => writes_element (ih v inside)
  | @object members distinct _ ih =>
    intro t written
    rw [stringify, stringifyMembers_eq, ownKeysFirst_map fun v => (stringify v).getD [],
      List.map_map, Option.some.injEq] at written
    rw [← written, reread, ← reread_members members distinct]
    apply writes_object
    intro m member
    rw [Json.mem_indexFirst, List.mem_filter, decide_eq_true_eq] at member
    obtain ⟨inside, there⟩ := member
    obtain ⟨text, known⟩ := Option.ne_none_iff_exists'.mp (mt stringify_eq_none.mp there)
    have here : Writes ((stringify m.2).getD []) (reread m.2) := by
      rw [known]
      exact ih m inside text known
    exact here

/-- `JSON.parse` of what `JSON.stringify` wrote. -/
theorem parse_stringify {v : Value} (held : Held v) {t : Text} (written : stringify v = some t) :
    Json.parse t = some (reread v) := parse_of_writes (writes_stringify held t written)

/-- Names that are no array indices are listed as they come. -/
theorem indexFirst_eq_self {members : List (Text × Value)}
    (names : ∀ m ∈ members, Json.arrayIndex m.1 = none) : Json.indexFirst members = members := by
  have indices : members.filter (fun m => (Json.arrayIndex m.1).isSome) = [] := by
    apply List.filter_eq_nil_iff.mpr
    intro m member
    rw [names m member]
    decide
  have others : members.filter (fun m => (Json.arrayIndex m.1).isNone) = members := by
    apply List.filter_eq_self.mpr
    intro m member
    rw [names m member]
    rfl
  rw [Json.indexFirst, indices, others, List.mergeSort_nil, List.nil_append]

/-! ### Integers -/

/-- An integer up to two to the power 53 is a double. -/
theorem nearest_natCast {m : Nat} (small : m ≤ 9007199254740992) : Json.nearest m 1 = m * one := by
  have grid := Doubles.onGrid_natCast small
  apply Nat.le_antisymm
  · exact Doubles.nearest_le grid Nat.one_pos (by rw [Nat.mul_one])
  · exact Doubles.le_nearest grid Nat.one_pos (by rw [Nat.mul_one])

theorem ofDecimal_natCast {m : Nat} (small : m ≤ 9007199254740992) :
    Number.ofDecimal false m 0 = .finite (m * one : Nat) := by
  rw [Doubles.ofDecimal_eq, nearest_natCast small, Doubles.signed_of_lt (Doubles.lt_overflow small)]
  rfl

/-- An integer that is read as one below two to the power 53 is that one. -/
theorem eq_of_ofDecimal {n m : Nat} (small : m < 9007199254740992)
    (same : Number.ofDecimal false n 0 = .finite (m * one : Nat)) : n = m := by
  have below : n ≤ 9007199254740992 := by
    apply Nat.not_lt.mp
    intro large
    have grid := Doubles.onGrid_natCast (Nat.le_refl 9007199254740992)
    have reached : 9007199254740992 * one * 1 ≤ n * one := by
      rw [Nat.mul_one]
      exact Nat.mul_le_mul_right one (Nat.le_of_lt large)
    have rounded := Doubles.le_nearest grid Nat.one_pos reached
    rw [Doubles.ofDecimal_eq, Doubles.signed] at same
    split at same
    · cases same
    · injection same with size
      rw [Doubles.withSign_false, Int.natCast_inj] at size
      rw [size] at rounded
      exact Nat.not_le.mpr small (Nat.le_of_mul_le_mul_right rounded Doubles.one_pos)
  rw [ofDecimal_natCast below, Number.finite.injEq, Int.natCast_inj] at same
  exact Nat.eq_of_mul_eq_mul_right Doubles.one_pos same

/-- The digits of a number with noughts behind them. -/
theorem decimal_mul_pow {s : Nat} (positive : 0 < s) (j : Nat) :
    decimal (s * Nat.pow 10 j) = decimal s ++ List.replicate j (unit '0') := by
  induction j with
  | zero => rw [Nat.pow_eq, Nat.pow_zero, Nat.mul_one, List.replicate_zero, List.append_nil]
  | succ j ih =>
    have more : 0 < s * Nat.pow 10 j := Nat.mul_pos positive (Nat.pow_pos (by decide))
    have digits := Nat.toDigits_append_toDigits (b := 10) (d := 0) (by decide) more (by decide)
    have product : s * Nat.pow 10 (j + 1) = 10 * (s * Nat.pow 10 j) + 0 := by
      change s * (Nat.pow 10 j * 10) = 10 * (s * Nat.pow 10 j)
      ac_rfl
    have noughts : (Nat.toDigits 10 0).map unit = [unit '0'] := rfl
    rw [product, decimal, ← digits, List.map_append, noughts, List.replicate_succ', ← List.append_assoc,
      ← ih]
    rfl

/-- The first one that is found is no later than one that is there. -/
theorem findSome?_range {β : Type} {P : β → Prop} {f : Nat → Option β} {n : Nat} {d : β} (last : Nat)
    (inside : last < n) (found : (f last).isSome) (each : ∀ k ≤ last, ∀ b, f k = some b → P b) :
    P (((List.range n).findSome? f).getD d) := by
  have split : n = (last + 1) + (n - (last + 1)) := by omega
  have first : ((List.range (last + 1)).findSome? f).isSome := by
    rw [List.findSome?_isSome_iff]
    exact ⟨last, List.mem_range.mpr (by omega), found⟩
  obtain ⟨b, is_first⟩ := Option.isSome_iff_exists.mp first
  obtain ⟨k, member, here⟩ := List.exists_of_findSome?_eq_some is_first
  rw [split, List.range_add, List.findSome?_append, is_first, Option.some_or, Option.getD_some]
  exact each k (by rw [List.mem_range] at member; omega) b here

/-- The digits of an integer without the noughts behind them, and how long it is. -/
def IsDecimal (m : Nat) (shortest : Nat × Int) : Prop :=
  shortest.2 = (decimal m).length ∧ ∃ j, m = shortest.1 * Nat.pow 10 j

theorem ofDecimal_scaled (s j : Nat) :
    Number.ofDecimal false s j = Number.ofDecimal false (s * Nat.pow 10 j) 0 := by
  unfold Number.ofDecimal
  generalize Nat.pow 2 2098 = bound
  simp

theorem shortest_natCast {m : Nat} (positive : 0 < m) (small : m < 9007199254740992) :
    IsDecimal m (Json.shortest (m * one)) := by
  have fits : one ≤ m * one := Nat.le_mul_of_pos_left one positive
  have length : (decimal m).length = (Nat.toDigits 10 m).length := List.length_map _
  have long : 0 < (Nat.toDigits 10 m).length := Nat.length_toDigits_pos
  have short : (Nat.toDigits 10 m).length ≤ 16 :=
    (Nat.length_toDigits_le_iff (by decide) (by decide)).mpr (by omega)
  have above : m < Nat.pow 10 (Nat.toDigits 10 m).length :=
    (Nat.length_toDigits_le_iff (by decide) long).mp (Nat.le_refl _)
  rw [Json.shortest]
  simp only [if_pos fits, Nat.mul_div_cancel m Doubles.one_pos]
  apply findSome?_range (P := IsDecimal m) ((Nat.toDigits 10 m).length - 1) (by omega)
  · have exact : (((Nat.toDigits 10 m).length - 1 + 1 : Nat) : Int) - (Nat.toDigits 10 m).length = 0 := by
      omega
    have no_power : Nat.pow 10 (Int.toNat 0) = 1 := rfl
    rw [exact, Option.isSome_map, List.find?_isSome, Int.neg_zero, no_power, Nat.mul_one, Nat.mul_one,
      Nat.mul_div_cancel m Doubles.one_pos]
    refine ⟨m, ?_, decide_eq_true (ofDecimal_natCast (Nat.le_of_lt small))⟩
    split <;> simp
  · intro k early b attempt
    obtain ⟨s, found, rfl⟩ := Option.map_eq_some_iff.mp attempt
    have test := List.find?_some found
    have same := of_decide_eq_true test
    have places : -(((k + 1 : Nat) : Int) - (Nat.toDigits 10 m).length) =
        ((Nat.toDigits 10 m).length - (k + 1) : Nat) := by omega
    rw [places, ofDecimal_scaled] at same
    have whole := eq_of_ofDecimal small same
    have no_power : s ≠ Nat.pow 10 (k + 1) := by
      rintro rfl
      have power := Nat.pow_add 10 (k + 1) ((Nat.toDigits 10 m).length - (k + 1))
      rw [Nat.add_sub_cancel' (by omega)] at power
      exact absurd (power.trans whole) (Nat.ne_of_gt above)
    rw [if_neg no_power]
    exact ⟨congrArg Nat.cast length.symm, _, whole.symm⟩

/-- An integer is written in its digits. -/
theorem sizeText_natCast {m : Nat} (positive : 0 < m) (small : m < 9007199254740992) :
    Json.sizeText (m * one) = decimal m := by
  obtain ⟨point, j, digits⟩ := shortest_natCast positive small
  have short : (decimal m).length ≤ 16 := by
    rw [decimal, List.length_map]
    exact (Nat.length_toDigits_le_iff (by decide) (by decide)).mpr (by omega)
  rw [Json.sizeText]
  generalize Json.shortest (m * one) = shortest at point digits
  obtain ⟨s, place⟩ := shortest
  subst point
  have some_digit : 0 < s := by
    apply Nat.pos_of_ne_zero
    rintro rfl
    rw [Nat.zero_mul] at digits
    omega
  have split : decimal m = decimal s ++ List.replicate j (unit '0') := by
    rw [digits, decimal_mul_pow some_digit]
  have length : (decimal m).length = (decimal s).length + j := by
    rw [split, List.length_append, List.length_replicate]
  simp only [length]
  rw [if_pos (by omega), split]
  congr 2
  omega

/-- An integer is read as what it was written for. -/
theorem readNumber_natCast {m : Nat} (small : m < 9007199254740992) :
    Json.readNumber (Number.text (.finite (m * one : Nat))) = some (.finite (m * one : Nat)) := by
  have read := Doubles.readNumber_digits m false
  rw [ofDecimal_natCast (Nat.le_of_lt small)] at read
  rcases Nat.eq_zero_or_pos m with rfl | positive
  · rw [Nat.zero_mul] at read ⊢
    exact read
  · have size : 0 < m * one := Nat.mul_pos positive Doubles.one_pos
    rw [Number.text, if_neg (by omega), if_neg (by omega), Int.natAbs_natCast,
      sizeText_natCast positive small]
    exact read

end Hwfa.JsonRoundTrip
