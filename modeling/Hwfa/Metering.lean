import Mathlib.Algebra.BigOperators.Group.List.Basic
import Mathlib.Algebra.GroupWithZero.Nat

/-!
Fixed-window metering: a holder may be charged up to a budget in a window, and the
first charge after a window has elapsed opens the next one.

A window begins where the holder happens to ask, so any other interval of its width
may meet two windows, and never three.
-/

namespace Hwfa.Metering

universe u

/-- An amount that was charged to someone. -/
structure Charge (ι : Type u) where
  holder : ι
  time : Int
  amount : Nat

variable {ι : Type u} {charges : List (Charge ι)} {c : Charge ι}
variable {p q r : Charge ι → Prop} [DecidablePred p] [DecidablePred q] [DecidablePred r]

/-- What the charges of a kind amount to. -/
def spent (charges : List (Charge ι)) (p : Charge ι → Prop) [DecidablePred p] : Nat :=
  ((charges.filter p).map (·.amount)).sum

theorem spent_append : spent (charges ++ [c]) p = spent charges p + if p c then c.amount else 0 := by
  unfold spent
  rw [List.filter_append, List.map_append, List.sum_append]
  by_cases counted : p c
  · simp [counted]
  · simp [counted]

theorem spent_cons : spent (c :: charges) p = (if p c then c.amount else 0) + spent charges p := by
  unfold spent
  by_cases counted : p c
  · simp [counted]
  · simp [counted]

/-- Charges of one kind amount to no more than those of two kinds that cover it. -/
theorem spent_le_add (covered : ∀ c ∈ charges, p c → q c ∨ r c) :
    spent charges p ≤ spent charges q + spent charges r := by
  induction charges with
  | nil => exact Nat.zero_le _
  | cons c rest ih =>
    have others := ih fun c member => covered c (List.mem_cons_of_mem _ member)
    have first := covered c List.mem_cons_self
    rw [spent_cons, spent_cons, spent_cons]
    split
    · next counted =>
      rcases first counted with one | other
      · rw [if_pos one]
        omega
      · rw [if_pos other]
        omega
    · omega

theorem spent_mono (covered : ∀ c ∈ charges, p c → q c) : spent charges p ≤ spent charges q := by
  have both := spent_le_add (r := fun _ => False) fun c member counted => .inl (covered c member counted)
  have nothing : spent charges (fun _ => False) = 0 := by simp [spent]
  omega

theorem spent_congr (same : ∀ c ∈ charges, p c ↔ q c) : spent charges p = spent charges q :=
  Nat.le_antisymm (spent_mono fun c member => (same c member).mp)
    (spent_mono fun c member => (same c member).mpr)

theorem spent_eq_zero (unmet : ∀ c ∈ charges, ¬ p c) : spent charges p = 0 := by
  rw [spent, List.filter_eq_nil_iff.mpr (by simpa using unmet)]
  rfl

/-! ### A window -/

/-- The charges to some holders, where a window of theirs was opened at `start` and
`used` was charged in it. -/
structure Metered (width : Int) (budget : Nat) (charges : List (Charge ι)) (mine : ι → Prop)
    [DecidablePred mine] (start : Int) (used : Nat) : Prop where
  current : spent charges (fun c => mine c.holder ∧ start ≤ c.time) = used
  within : used ≤ budget
  inside : ∀ c ∈ charges, mine c.holder → c.time < start + width
  /-- What is left of an earlier window. -/
  before : spent charges (fun c => mine c.holder ∧ start - width ≤ c.time ∧ c.time < start) ≤ budget

variable {mine : ι → Prop} [DecidablePred mine] {width start now : Int} {budget used n : Nat} {k : ι}

/-- The first window of someone who was never charged. -/
theorem Metered.first (uncharged : ∀ c ∈ charges, ¬ mine c.holder) :
    Metered width budget charges mine now 0 where
  current := spent_eq_zero fun c member counted => uncharged c member counted.1
  within := Nat.zero_le _
  inside c member own := absurd own (uncharged c member)
  before := by
    rw [spent_eq_zero fun c member counted => uncharged c member counted.1]
    exact Nat.zero_le _

/-- The next window, once the last one has elapsed. -/
theorem Metered.renew (metered : Metered width budget charges mine start used)
    (wide : 0 ≤ width) (elapsed : start + width ≤ now) : Metered width budget charges mine now 0 := by
  have past (c : Charge ι) (member : c ∈ charges) (own : mine c.holder) : c.time < now :=
    Int.lt_of_lt_of_le (metered.inside c member own) elapsed
  refine ⟨?_, Nat.zero_le _, ?_, ?_⟩
  · refine spent_eq_zero ?_
    rintro c member ⟨own, later⟩
    have earlier := past c member own
    omega
  · intro c member own
    have earlier := past c member own
    omega
  · calc spent charges (fun c => mine c.holder ∧ now - width ≤ c.time ∧ c.time < now)
        ≤ spent charges (fun c => mine c.holder ∧ start ≤ c.time) := by
          refine spent_mono ?_
          rintro c - ⟨own, recent, -⟩
          exact ⟨own, by omega⟩
      _ ≤ budget := metered.current ▸ metered.within

/-- A charge in the window. -/
theorem Metered.charge (metered : Metered width budget charges mine start used) (own : mine k)
    (opened : start ≤ now) (open_ : now < start + width) (fits : used + n ≤ budget) :
    Metered width budget (charges ++ [⟨k, now, n⟩]) mine start (used + n) := by
  refine ⟨?_, fits, ?_, ?_⟩
  · rw [spent_append, metered.current, if_pos ⟨own, opened⟩]
  · intro c member holds
    rcases List.mem_append.mp member with old | new
    · exact metered.inside c old holds
    · rw [List.mem_singleton.mp new]
      exact open_
  · rw [spent_append, if_neg]
    · exact metered.before
    · rintro ⟨-, -, earlier⟩
      exact Int.not_lt.mpr opened earlier

/-- A charge to somebody else. -/
theorem Metered.other (metered : Metered width budget charges mine start used) (foreign : ¬ mine k) :
    Metered width budget (charges ++ [⟨k, now, n⟩]) mine start used := by
  refine ⟨?_, metered.within, ?_, ?_⟩
  · rw [spent_append, metered.current, if_neg fun counted => foreign counted.1]
    rfl
  · intro c member own
    rcases List.mem_append.mp member with old | new
    · exact metered.inside c old own
    · rw [List.mem_singleton.mp new] at own
      exact absurd own foreign
  · rw [spent_append, if_neg fun counted => foreign counted.1]
    exact metered.before

/-- An interval that ends after the window was opened meets that window and the one before. -/
theorem Metered.recent (metered : Metered width budget charges mine start used) (opened : start ≤ now) :
    spent charges (fun c => mine c.holder ∧ now - width ≤ c.time) ≤ budget + used := by
  calc spent charges (fun c => mine c.holder ∧ now - width ≤ c.time)
      ≤ spent charges (fun c => mine c.holder ∧ start - width ≤ c.time ∧ c.time < start) +
          spent charges (fun c => mine c.holder ∧ start ≤ c.time) := by
        refine spent_le_add ?_
        rintro c - ⟨own, recent⟩
        by_cases earlier : c.time < start
        · exact .inl ⟨own, by omega, earlier⟩
        · exact .inr ⟨own, Int.not_lt.mp earlier⟩
    _ ≤ budget + used := Nat.add_le_add metered.before (Nat.le_of_eq metered.current)

end Hwfa.Metering
