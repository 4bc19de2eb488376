import Hwfa.ScamDetector
import Hwfa.StatusStore

/-!
A scam that stands on lines of its own is found whatever stands before and after it
(`packages/client/src/scam/detector.ts`).

A line end is no part of a word, so every pattern that matches in the text still matches;
and what more matches only adds to the score.
-/

namespace Hwfa.ScamDilution

open Hwfa.Json Hwfa.ConversationStore Hwfa.Regex Hwfa.ScamDetector Hwfa.StatusStore

/-- The text on lines of its own, between two others. -/
def between (front text behind : Text) : Text :=
  front ++ unit '\n' :: (text ++ unit '\n' :: behind)

theorem test_between {p : Pattern UInt16} {text : Text} (front behind : Text)
    (matched : p.test isWord text = true) : p.test isWord (between front text behind) = true := by
  have apart : isWord (unit '\n') = false := by decide
  have behind_apart : (unit '\n' :: behind).head?.any isWord = false := apart
  exact Pattern.test_within apart behind_apart front matched

/-! ### The scores -/

/-- A weight more for a category. -/
def credit (entries : List (ScamCategory × Nat)) (c : ScamCategory) (weight : Nat) :
    List (ScamCategory × Nat) :=
  match entries.findIdx? fun entry => entry.1 = c with
  | some i => entries.modify i fun entry => (entry.1, entry.2 + weight)
  | none => entries ++ [(c, weight)]

/-- What the signals of a list make of the scores so far. -/
def tally (signals : List Signal) (text : Text) (entries : List (ScamCategory × Nat)) :
    List (ScamCategory × Nat) :=
  signals.foldl (fun entries signal =>
    if signal.pattern.test isWord text then credit entries signal.category signal.weight
    else entries) entries

theorem scores_eq (text : Text) : scores text = tally SIGNALS text [] := rfl

variable {entries entries' : List (ScamCategory × Nat)} {c : ScamCategory} {weight : Nat}

/-- A category that is there is changed where it is; a new one comes last. -/
theorem credit_cases (entries : List (ScamCategory × Nat)) (c : ScamCategory) (weight : Nat) :
    (∃ front w back, entries = front ++ (c, w) :: back ∧
        credit entries c weight = front ++ (c, w + weight) :: back) ∨
      (∀ entry ∈ entries, entry.1 ≠ c) ∧ credit entries c weight = entries ++ [(c, weight)] := by
  induction entries with
  | nil =>
    right
    constructor
    · intro entry inside
      cases inside
    · rfl
  | cons entry rest ih =>
    by_cases here : entry.1 = c
    · left
      refine ⟨[], entry.2, rest, ?_, ?_⟩
      · rw [← here]
        rfl
      · unfold credit
        rw [List.findIdx?_cons, if_pos (decide_eq_true here), ← here]
        rfl
    · have later : credit (entry :: rest) c weight = entry :: credit rest c weight := by
        unfold credit
        rw [List.findIdx?_cons, if_neg (by simpa using here)]
        cases rest.findIdx? fun entry => entry.1 = c with
        | none => rfl
        | some i => rfl
      rw [later]
      rcases ih with ⟨front, w, back, parts, same⟩ | ⟨absent, same⟩
      · left
        refine ⟨entry :: front, w, back, ?_, ?_⟩
        · rw [parts]
          rfl
        · rw [same]
          rfl
      · right
        constructor
        · intro other inside
          rcases List.mem_cons.mp inside with rfl | inside
          · exact here
          · exact absent other inside
        · rw [same]
          rfl

/-- No category is listed twice. -/
def Distinct (entries : List (ScamCategory × Nat)) : Prop := (entries.map Prod.fst).Nodup

theorem Distinct.credit (distinct : Distinct entries) (c : ScamCategory) (weight : Nat) :
    Distinct (credit entries c weight) := by
  unfold Distinct at distinct ⊢
  rcases credit_cases entries c weight with ⟨front, w, back, rfl, same⟩ | ⟨absent, same⟩
  · rw [same]
    rw [List.map_append, List.map_cons] at distinct ⊢
    exact distinct
  · rw [same, List.map_append, List.map_singleton]
    refine List.nodup_append.mpr ⟨distinct, List.nodup_singleton c, ?_⟩
    intro a inside b new
    obtain ⟨entry, member, rfl⟩ := List.mem_map.mp inside
    rw [List.mem_singleton.mp new]
    exact absent entry member

/-- A category's weight once more is added. -/
theorem mem_credit (distinct : Distinct entries) {w : Nat} (member : (c, w) ∈ entries) :
    (c, w + weight) ∈ credit entries c weight := by
  rcases credit_cases entries c weight with ⟨front, w', back, rfl, same⟩ | ⟨absent, -⟩
  · rw [same]
    have unique : w = w' := by
      unfold Distinct at distinct
      rw [List.map_append, List.map_cons] at distinct
      obtain ⟨-, behind, apart⟩ := List.nodup_append.mp distinct
      rcases List.mem_append.mp member with before | after
      · exact absurd rfl (apart c (List.mem_map.mpr ⟨_, before, rfl⟩) c List.mem_cons_self)
      · rcases List.mem_cons.mp after with here | later
        · cases here
          rfl
        · exact absurd (List.mem_map.mpr ⟨_, later, rfl⟩) (List.nodup_cons.mp behind).1
    rw [unique]
    exact List.mem_append_right _ List.mem_cons_self
  · exact absurd rfl (absent _ member)

/-- A category that is credited has at least that weight. -/
theorem credited (entries : List (ScamCategory × Nat)) (c : ScamCategory) (weight : Nat) :
    ∃ w, weight ≤ w ∧ (c, w) ∈ credit entries c weight := by
  rcases credit_cases entries c weight with ⟨front, w, back, -, same⟩ | ⟨-, same⟩
  · refine ⟨w + weight, Nat.le_add_left .., ?_⟩
    rw [same]
    exact List.mem_append_right _ List.mem_cons_self
  · refine ⟨weight, Nat.le_refl _, ?_⟩
    rw [same]
    exact List.mem_append_right _ (List.mem_singleton_self _)

/-- Every category of the one list is in the other, with at least its weight. -/
def Below (entries entries' : List (ScamCategory × Nat)) : Prop :=
  ∀ c w, (c, w) ∈ entries → ∃ w', w ≤ w' ∧ (c, w') ∈ entries'

theorem Below.credit_right (below : Below entries entries') (c : ScamCategory) (weight : Nat) :
    Below entries (credit entries' c weight) := by
  intro d w member
  obtain ⟨w', heavier, member'⟩ := below d w member
  rcases credit_cases entries' c weight with ⟨front, u, back, rfl, same⟩ | ⟨-, same⟩
  · rw [same]
    rcases List.mem_append.mp member' with before | after
    · exact ⟨w', heavier, List.mem_append_left _ before⟩
    · rcases List.mem_cons.mp after with here | later
      · cases here
        refine ⟨w' + weight, Nat.le_trans heavier (Nat.le_add_right ..), ?_⟩
        exact List.mem_append_right _ List.mem_cons_self
      · exact ⟨w', heavier, List.mem_append_right _ (List.mem_cons_of_mem _ later)⟩
  · rw [same]
    exact ⟨w', heavier, List.mem_append_left _ member'⟩

theorem Below.credit (below : Below entries entries') (distinct : Distinct entries')
    (c : ScamCategory) (weight : Nat) :
    Below (credit entries c weight) (credit entries' c weight) := by
  intro d w member
  rcases credit_cases entries c weight with ⟨front, u, back, rfl, same⟩ | ⟨-, same⟩
  · rw [same] at member
    have kept (inside : (d, w) ∈ front ++ (c, u) :: back) := below.credit_right c weight d w inside
    rcases List.mem_append.mp member with before | after
    · exact kept (List.mem_append_left _ before)
    · rcases List.mem_cons.mp after with here | later
      · cases here
        obtain ⟨u', heavier, member'⟩ :=
          below c u (List.mem_append_right _ List.mem_cons_self)
        exact ⟨u' + weight, Nat.add_le_add_right heavier weight, mem_credit distinct member'⟩
      · exact kept (List.mem_append_right _ (List.mem_cons_of_mem _ later))
  · rw [same] at member
    rcases List.mem_append.mp member with before | new
    · exact below.credit_right c weight d w before
    · cases List.mem_singleton.mp new
      exact credited entries' c weight

/-- Whatever a text entries, a text in which every pattern matches that matches in it
entries at least. -/
theorem Below.tally {text text' : Text}
    (matched : ∀ p : Pattern UInt16, p.test isWord text = true → p.test isWord text' = true)
    (signals : List Signal) (below : Below entries entries') (distinct : Distinct entries') :
    Below (tally signals text entries) (tally signals text' entries') := by
  induction signals generalizing entries entries' with
  | nil => exact below
  | cons signal rest ih =>
    unfold ScamDilution.tally
    rw [List.foldl_cons, List.foldl_cons]
    by_cases here : signal.pattern.test isWord text = true
    · rw [if_pos here, if_pos (matched _ here)]
      exact ih (below.credit distinct _ _) (distinct.credit _ _)
    · rw [if_neg here]
      split
      · exact ih (below.credit_right _ _) (distinct.credit _ _)
      · exact ih below distinct

/-! ### The score -/

/-- The best category so far, or one with a higher score. -/
def better (best : Option ScamCategory × Nat) (entry : ScamCategory × Nat) :
    Option ScamCategory × Nat :=
  if best.2 < entry.2 then (some entry.1, entry.2) else best

theorem top_eq (entries : List (ScamCategory × Nat)) :
    top entries = entries.foldl better (none, 0) := rfl

/-- No category entries more than the best one. -/
theorem le_foldl_better (best : Option ScamCategory × Nat) :
    best.2 ≤ (entries.foldl better best).2 ∧
      ∀ entry ∈ entries, entry.2 ≤ (entries.foldl better best).2 := by
  induction entries generalizing best with
  | nil =>
    refine ⟨Nat.le_refl _, fun entry inside => ?_⟩
    cases inside
  | cons entry rest ih =>
    obtain ⟨least, others⟩ := ih (better best entry)
    have grows : best.2 ≤ (better best entry).2 ∧ entry.2 ≤ (better best entry).2 := by
      unfold better
      split
      · next less => exact ⟨Nat.le_of_lt less, Nat.le_refl _⟩
      · next most => exact ⟨Nat.le_refl _, Nat.not_lt.mp most⟩
    refine ⟨Nat.le_trans grows.1 least, fun other inside => ?_⟩
    rcases List.mem_cons.mp inside with rfl | inside
    · exact Nat.le_trans grows.2 least
    · exact others other inside

/-- The best score is that of some category. -/
theorem foldl_better_cases (entries : List (ScamCategory × Nat))
    (best : Option ScamCategory × Nat) :
    (entries.foldl better best).2 = best.2 ∨
      ∃ entry ∈ entries, (entries.foldl better best).2 = entry.2 := by
  induction entries generalizing best with
  | nil => exact .inl rfl
  | cons entry rest ih =>
    rcases ih (better best entry) with same | ⟨other, inside, same⟩
    · rw [List.foldl_cons, same]
      unfold better
      split
      · exact .inr ⟨entry, List.mem_cons_self, rfl⟩
      · exact .inl rfl
    · exact .inr ⟨other, List.mem_cons_of_mem _ inside, same⟩

theorem Below.top (below : Below entries entries') : (top entries).2 ≤ (top entries').2 := by
  rw [top_eq, top_eq]
  rcases foldl_better_cases entries (none, 0) with nothing | ⟨⟨c, w⟩, inside, same⟩
  · rw [nothing]
    exact Nat.zero_le _
  · obtain ⟨w', heavier, inside'⟩ := below c w inside
    rw [same]
    exact Nat.le_trans heavier ((le_foldl_better (none, 0)).2 (c, w') inside')

/-- The score of a text in hundredths. -/
def hundredths (text : Text) : Nat :=
  if text = [] ∨ scores text = [] then 0
  else min 100 ((top (scores text)).2 + amplifiers text * AMPLIFIER_BONUS)

theorem hundredths_le (text : Text) : hundredths text ≤ 100 := by
  unfold hundredths
  split
  · exact Nat.zero_le _
  · exact Nat.min_le_left ..

theorem analyze_score (text : Text) :
    (analyze text).score = .ofDecimal false (hundredths text) (-2) ∧
      ((analyze text).flagged = true ↔ FLAG_THRESHOLD ≤ hundredths text) := by
  have nothing : Number.ofDecimal false 0 (-2) = .finite 0 := by decide +kernel
  unfold analyze hundredths
  by_cases blank : text = []
  · rw [if_pos blank, if_pos (.inl blank), nothing]
    exact ⟨rfl, by decide⟩
  · by_cases unscored : scores text = []
    · have silent : text = [] ∨ scores text = [] := .inr unscored
      rw [if_neg blank, if_pos silent, nothing]
      simp only [unscored, if_true]
      exact ⟨rfl, by decide⟩
    · have either : ¬ (text = [] ∨ scores text = []) := fun h => h.elim blank unscored
      rw [if_neg blank, if_neg either]
      simp only [unscored, if_false]
      exact ⟨trivial, decide_eq_true_iff⟩

theorem hundredths_between (front text behind : Text) :
    hundredths text ≤ hundredths (between front text behind) := by
  have matched (p : Pattern UInt16) : p.test isWord text = true →
      p.test isWord (between front text behind) = true := test_between front behind
  have below : Below (scores text) (scores (between front text behind)) := by
    rw [scores_eq, scores_eq]
    apply Below.tally matched SIGNALS
    · intro c w inside
      cases inside
    · exact List.nodup_nil
  have louder : amplifiers text ≤ amplifiers (between front text behind) :=
    List.countP_mono_left fun p _ => matched p
  unfold hundredths
  by_cases silent : text = [] ∨ scores text = []
  · rw [if_pos silent]
    exact Nat.zero_le _
  · have loud : ¬ (between front text behind = [] ∨ scores (between front text behind) = []) := by
      rintro (blank | unscored)
      · exact absurd blank (List.append_ne_nil_of_right_ne_nil _ (List.cons_ne_nil _ _))
      · obtain ⟨⟨c, w⟩, inside⟩ := List.exists_mem_of_ne_nil _ fun nothing => silent (.inr nothing)
        obtain ⟨w', -, inside'⟩ := below c w inside
        rw [unscored] at inside'
        cases inside'
    rw [if_neg silent, if_neg loud]
    have higher := below.top
    have bonus := Nat.mul_le_mul_right AMPLIFIER_BONUS louder
    omega

/-! ### The number shown -/

/-- How many quanta a number of hundredths is. -/
@[irreducible] def quanta (n : Nat) : Int :=
  match Number.ofDecimal false n (-2) with
  | .finite q => q
  | .infinite _ => 0

theorem ofDecimal_quanta : ∀ n : Fin 101, Number.ofDecimal false n (-2) = .finite (quanta n) := by
  decide +kernel

theorem quanta_succ : ∀ n : Fin 100, quanta n ≤ quanta (n + 1) := by decide +kernel

theorem quanta_mono {n m : Nat} (le : n ≤ m) (small : m ≤ 100) : quanta n ≤ quanta m := by
  induction m, le using Nat.le_induction with
  | base => exact Int.le_refl _
  | succ m le ih =>
    have one_more : quanta m ≤ quanta (m + 1) := quanta_succ ⟨m, by omega⟩
    exact Int.le_trans (ih (by omega)) one_more

/-- **A scam cannot be diluted.** Whatever stands on the lines before and after a text, the
verdict's score is not less than that of the text alone, and it is flagged if the text alone
is. -/
theorem not_diluted (front text behind : Text) :
    less (analyze (between front text behind)).score (analyze text).score = false ∧
      ((analyze text).flagged = true → (analyze (between front text behind)).flagged = true) := by
  obtain ⟨score, flagged⟩ := analyze_score text
  obtain ⟨score', flagged'⟩ := analyze_score (between front text behind)
  have more := hundredths_between front text behind
  have bound := hundredths_le text
  have bound' := hundredths_le (between front text behind)
  constructor
  · have number := ofDecimal_quanta ⟨hundredths text, by omega⟩
    have number' := ofDecimal_quanta ⟨hundredths (between front text behind), by omega⟩
    rw [score, score', number, number']
    exact decide_eq_false (Int.not_lt.mpr (quanta_mono more bound'))
  · exact fun warned => flagged'.mpr (Nat.le_trans (flagged.mp warned) more)

end Hwfa.ScamDilution
