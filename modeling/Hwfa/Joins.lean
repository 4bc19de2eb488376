import Mathlib.Data.List.MinMax
import Mathlib.Order.Bounds.Basic

/-!
Cells that only rise.

A cell is empty or holds an element of a linear order, and what it is offered replaces
what it holds if it is greater.  After any offers a cell holds the greatest of what it held
and was offered (`isGreatest_risen`): neither their order nor their number counts
(`risen_congr`).
-/

namespace Hwfa.Joins

universe u v

variable {α : Type u} [LinearOrder α]

/-- An offer is taken if the cell is empty or holds something less. -/
def raise (held : Option α) (offered : α) : Option α :=
  if held.any fun h => offered ≤ h then held else some offered

/-- What a cell holds after some offers. -/
def risen (held : Option α) (offers : List α) : Option α := offers.foldl raise held

/-- An empty cell is below every other. -/
def level (held : Option α) : WithBot α := held

theorem level_raise (held : Option α) (offered : α) :
    level (raise held offered) = max (level held) (offered : WithBot α) := by
  unfold raise
  cases held with
  | none => exact (max_eq_right bot_le).symm
  | some h =>
    rw [Option.any_some]
    by_cases lower : offered ≤ h
    · rw [if_pos (decide_eq_true lower)]
      exact (max_eq_left (WithBot.coe_le_coe.mpr lower)).symm
    · rw [if_neg (by simpa using lower)]
      exact (max_eq_right (WithBot.coe_le_coe.mpr (le_of_not_ge lower))).symm

theorem level_risen (held : Option α) (offers : List α) :
    level (risen held offers) = max (level held) offers.maximum := by
  induction offers generalizing held with
  | nil =>
    rw [List.maximum_nil]
    exact (max_eq_left bot_le).symm
  | cons first rest ih =>
    have rested : risen held (first :: rest) = risen (raise held first) rest := rfl
    rw [rested, ih, level_raise, List.maximum_cons, max_assoc]

/-- What a cell held or was offered. -/
def contenders (held : Option α) (offers : List α) : Set (WithBot α) :=
  {b | b = level held ∨ ∃ a ∈ offers, b = (a : WithBot α)}

theorem isGreatest_risen (held : Option α) (offers : List α) :
    IsGreatest (contenders held offers) (level (risen held offers)) := by
  rw [level_risen]
  constructor
  · rcases max_choice (level held) offers.maximum with kept | raised
    · exact .inl kept
    · rw [raised]
      by_cases empty : offers = []
      · rw [empty, List.maximum_nil] at raised ⊢
        exact .inl (le_bot_iff.mp ((le_max_left _ _).trans_eq raised)).symm
      · have top := WithBot.coe_unbot _ (List.maximum_ne_bot_of_ne_nil empty)
        exact .inr ⟨_, List.maximum_mem top.symm, top.symm⟩
  · rintro b (rfl | ⟨a, offered, rfl⟩)
    · exact le_max_left _ _
    · exact le_max_of_le_right (List.le_maximum_of_mem' offered)

/-- Neither the order of the offers nor their number counts. -/
theorem risen_congr {held : Option α} {offers others : List α}
    (same : ∀ a, a ∈ offers ↔ a ∈ others) : risen held offers = risen held others := by
  have contend : contenders held offers = contenders held others := by
    unfold contenders
    simp only [same]
  have greatest := isGreatest_risen held offers
  rw [contend] at greatest
  exact greatest.unique (isGreatest_risen held others)

theorem level_le_risen (held : Option α) (offers : List α) : level held ≤ level (risen held offers) :=
  (isGreatest_risen held offers).2 (Set.mem_insert _ _)

end Hwfa.Joins
