import Hwfa.GoJson

/-!
What the `encoding/json` of Go writes, as `JSON.parse` reads it when every byte is
taken for a code unit.

The escapes mean the same on both sides, and a byte of a character above ASCII is a
code unit that stands for itself, so a string is one string token whatever it says; it
is the same text only where it is ASCII.
-/

namespace Hwfa.JsonInterchange

open Hwfa.Json (Text Lexing unit utf16)
open Hwfa.GoJson (Bytes Escaped byte ascii latin1 hexDigit escape escapeLetters quote appendInt)
open Hwfa.Lexers (Lexer Run)

def lexer : Lexer UInt16 Lexing Json.Token := ⟨Lexing.read, Lexing.finish⟩

theorem lex_eq (state : Lexing) (text : Text) : Json.lex state text = lexer.lex state text := by
  induction text generalizing state with
  | nil => rfl
  | cons u rest ih =>
    rw [Json.lex, Lexer.lex]
    simp only [ih]
    rfl

/-- A code unit that stands for itself in a string. -/
def IsPlain (u : UInt16) : Prop := u ≠ unit '"' ∧ u ≠ unit '\\' ∧ ¬u < 0x20

theorem run_plain (done : Text) {t : Text} (plain : ∀ u ∈ t, IsPlain u) :
    Run lexer (.quoted done) t [] (.quoted (done ++ t)) := by
  apply Run.each Lexing.quoted
  intro seen u member
  obtain ⟨quote_ne, backslash_ne, visible⟩ := plain u member
  change Lexing.read (.quoted seen) u = _
  simp only [Lexing.read, if_neg quote_ne, if_neg backslash_ne, if_neg visible]

theorem isPlain_latin1 {bytes : Bytes} (plain : ∀ b ∈ bytes, GoJson.IsPlain b) :
    ∀ u ∈ latin1 bytes, IsPlain u := by
  intro u member
  obtain ⟨b, inside, rfl⟩ := List.mem_map.mp member
  obtain ⟨quote_ne, backslash_ne, visible⟩ := plain b inside
  refine ⟨?_, ?_, ?_⟩
  · intro same
    exact quote_ne (UInt8.toUInt16_inj.mp same)
  · intro same
    exact backslash_ne (UInt8.toUInt16_inj.mp same)
  · rw [UInt16.lt_iff_toNat_lt, UInt8.toNat_toUInt16]
    rw [UInt8.lt_iff_toNat_lt] at visible
    exact visible

/-- A string that stands for itself, such as the key of an object. -/
theorem run_literal {t : Text} (plain : ∀ u ∈ t, IsPlain u) :
    Run lexer .between (unit '"' :: (t ++ [unit '"'])) [.scalar (.string t)] .between := by
  have opened : lexer.read .between (unit '"') = some ([], .quoted []) := rfl
  have closed : lexer.read (.quoted t) (unit '"') = some ([.scalar (.string t)], .between) := rfl
  exact Run.cons opened ((run_plain [] plain).append (Run.one closed))

theorem isPlain_of_isLower {u : UInt16} (lower : Json.isLower u) : IsPlain u := by
  rw [Json.isLower, Bool.and_eq_true, decide_eq_true_eq, UInt16.le_iff_toNat_le] at lower
  have low : 97 ≤ u.toNat := lower.1
  refine ⟨?_, ?_, ?_⟩
  · rintro rfl
    exact absurd low (by decide)
  · rintro rfl
    exact absurd low (by decide)
  · rw [UInt16.lt_iff_toNat_lt]
    have space : (0x20 : UInt16).toNat = 32 := rfl
    omega

/-- A key in lower case. -/
theorem run_key {t : Text} (lower : t.all Json.isLower) :
    Run lexer .between (unit '"' :: (t ++ [unit '"'])) [.scalar (.string t)] .between :=
  run_literal fun u member => isPlain_of_isLower (List.all_eq_true.mp lower u member)

theorem hexDigit_hexDigit {n : Nat} (small : n < 16) :
    Json.hexDigit (hexDigit n).toUInt16 = some n := GoJson.hexValue_hexDigit small

/-- A digit of a code that is not the last one. -/
theorem read_hex {n : Nat} (small : n < 16) (done : Text) {digits : List Nat}
    (more : digits.length < 3) :
    lexer.read (.hex done digits) (hexDigit n).toUInt16 = some ([], .hex done (digits ++ [n])) := by
  change Lexing.read (.hex done digits) (hexDigit n).toUInt16 = _
  rw [Lexing.read]
  simp only [hexDigit_hexDigit small, Option.bind_eq_bind, Option.bind_some]
  split
  · simp at more
  · rfl

theorem run_code {w x y z : Nat} (small : w < 16 ∧ x < 16 ∧ y < 16 ∧ z < 16) (done : Text) :
    ∃ u, Run lexer (.hex done []) (latin1 [hexDigit w, hexDigit x, hexDigit y, hexDigit z]) []
      (.quoted (done ++ [u])) := by
  obtain ⟨w_small, x_small, y_small, z_small⟩ := small
  have last : lexer.read (.hex done [w, x, y]) (hexDigit z).toUInt16 =
      some ([], .quoted (done ++ [UInt16.ofNat (((w * 16 + x) * 16 + y) * 16 + z)])) := by
    change Lexing.read (.hex done [w, x, y]) (hexDigit z).toUInt16 = _
    simp only [Lexing.read, hexDigit_hexDigit z_small, Option.bind_eq_bind, Option.bind_some]
    rfl
  exact ⟨_, Run.cons (read_hex w_small done (by simp)) (Run.cons (read_hex x_small done (by simp))
    (Run.cons (read_hex y_small done (by simp)) (Run.one last)))⟩

/-- Whatever way a character is written in, the string goes on behind it. -/
theorem run_escaped {c : Char} {written : Bytes} (done : Text) (escaped : Escaped c written) :
    ∃ t, Run lexer (.quoted done) (latin1 written) [] (.quoted t) := by
  have backslash : lexer.read (.quoted done) (byte '\\').toUInt16 = some ([], .escaped done) := rfl
  cases escaped with
  | letter e known meaning =>
    obtain ⟨v, read⟩ : ∃ v, lexer.read (.escaped done) e.toUInt16 =
        some ([], .quoted (done ++ [v])) := by
      simp only [escapeLetters, ascii, List.map_cons, List.map_nil, List.mem_cons,
        List.not_mem_nil, or_false] at known
      rcases known with rfl | rfl | rfl | rfl | rfl | rfl | rfl | rfl
      all_goals exact ⟨_, rfl⟩
    exact ⟨_, Run.cons backslash (Run.one read)⟩
  | code w x y z small number =>
    have begun : lexer.read (.escaped done) (byte 'u').toUInt16 = some ([], .hex done []) := rfl
    obtain ⟨u, code⟩ := run_code small done
    exact ⟨_, Run.cons backslash (Run.cons begun code)⟩
  | plain plain => exact ⟨_, run_plain done (isPlain_latin1 plain)⟩

theorem latin1_append (bytes more : Bytes) : latin1 (bytes ++ more) = latin1 bytes ++ latin1 more :=
  List.map_append

theorem run_quote (s : String) :
    ∃ t, Run lexer .between (latin1 (quote s)) [.scalar (.string t)] .between := by
  have inside : ∀ (cs : List Char) (done : Text),
      ∃ t, Run lexer (.quoted done) (latin1 (cs.flatMap escape)) [] (.quoted t) := by
    intro cs
    induction cs with
    | nil => exact fun done => ⟨done, Run.nil _⟩
    | cons c cs ih =>
      intro done
      obtain ⟨first, run⟩ := run_escaped done (GoJson.escaped_escape c)
      obtain ⟨t, rest⟩ := ih first
      rw [List.flatMap_cons, latin1_append]
      exact ⟨t, run.append rest⟩
  obtain ⟨t, run⟩ := inside s.toList []
  have opened : lexer.read .between (byte '"').toUInt16 = some ([], .quoted []) := rfl
  have closed : lexer.read (.quoted t) (byte '"').toUInt16 =
      some ([.scalar (.string t)], .between) := rfl
  have written : latin1 (quote s) =
      (byte '"').toUInt16 :: (latin1 (s.toList.flatMap escape) ++ [(byte '"').toUInt16]) := by
    rw [quote, List.cons_append, latin1, List.map_cons, List.map_append]
    rfl
  rw [written]
  exact ⟨t, Run.cons opened (run.append (Run.one closed))⟩

/-! ### Integers -/

theorem latin1_appendInt (n : Int) : latin1 (appendInt n) = n.repr.toList.map unit :=
  GoJson.latin1_ascii (GoJson.repr_ascii n)

theorem readNumber_appendInt (n : Int) :
    Json.readNumber (latin1 (appendInt n)) = some (Doubles.ofInt n) := by
  rw [latin1_appendInt, Doubles.readNumber_repr]

theorem inNumeral_unit {c : Char} (numeral : c = '-' ∨ c.isDigit) :
    Json.inNumeral (unit c) = true := by
  rcases numeral with rfl | digit
  · rfl
  · rw [Json.inNumeral, Doubles.isDigit_unit digit]
    rfl

theorem beginToken_unit {c : Char} (numeral : c = '-' ∨ c.isDigit) :
    Json.beginToken (unit c) = some ([], .numeral [unit c]) := by
  rcases numeral with rfl | digit
  · rfl
  · have range := Doubles.digit_range digit
    unfold unit
    generalize c.toNat = n at range
    obtain rfl | rfl | rfl | rfl | rfl | rfl | rfl | rfl | rfl | rfl : n = 48 ∨ n = 49 ∨ n = 50 ∨
        n = 51 ∨ n = 52 ∨ n = 53 ∨ n = 54 ∨ n = 55 ∨ n = 56 ∨ n = 57 := by omega
    all_goals rfl

theorem run_appendInt (n : Int) :
    Run lexer .between (latin1 (appendInt n)) [] (.numeral (latin1 (appendInt n))) := by
  obtain ⟨c, more, split, first, others⟩ := Decimals.repr_cons n
  have begun : lexer.read .between (unit c) = some ([], .numeral [unit c]) := by
    change Lexing.read .between (unit c) = _
    simp only [Lexing.read, Lexing.finish, beginToken_unit first, Option.bind_eq_bind,
      Option.bind_some, List.nil_append]
    rfl
  rw [latin1_appendInt, split, List.map_cons]
  apply Run.begins begun
  intro seen u member
  obtain ⟨d, inside, rfl⟩ := List.mem_map.mp member
  exact if_pos (inNumeral_unit (others d inside))

/-- The brace behind a numeral closes both. -/
theorem read_closing (n : Int) : lexer.read (.numeral (latin1 (appendInt n))) 0x7D =
    some ([.scalar (.number (Doubles.ofInt n)), .closeObject], .between) := by
  have ends : Json.inNumeral 0x7D = false := rfl
  have begins : Json.beginToken 0x7D = some ([.closeObject], .between) := rfl
  change Lexing.read (.numeral (latin1 (appendInt n))) 0x7D = _
  simp [Lexing.read, Lexing.finish, ends, begins, readNumber_appendInt]

end Hwfa.JsonInterchange
