import Mathlib.Data.List.Nodup

/-!
Items that are numbered one after another.

A round gives out a stretch of consecutive numbers.  Where the numbers given out
so far are those from 1 to some top, a round that starts within them or right
after them leaves it so, and repeats a number exactly if it starts within them.
-/

namespace Hwfa.Numbering

/-- The `n` numbers from `start` on. -/
def stretch (start : Int) : Nat → List Int
  | 0 => []
  | n + 1 => stretch start n ++ [start + n]

variable {ids : List Int} {start top i : Int} {n : Nat}

theorem mem_stretch : i ∈ stretch start n ↔ start ≤ i ∧ i < start + n := by
  induction n with
  | zero =>
    simp only [stretch, List.not_mem_nil, false_iff]
    omega
  | succ n ih =>
    simp only [stretch, List.mem_append, List.mem_singleton, ih]
    omega

theorem nodup_stretch (start : Int) (n : Nat) : (stretch start n).Nodup := by
  induction n with
  | zero => exact List.nodup_nil
  | succ n ih =>
    refine List.Nodup.append ih (List.nodup_singleton _) ?_
    intro i earlier last
    have below := (mem_stretch.mp earlier).2
    rw [List.mem_singleton.mp last] at below
    exact absurd below (Int.lt_irrefl _)

/-- A round that starts beyond all numbers given out repeats none. -/
theorem nodup_append_stretch (distinct : ids.Nodup) (beyond : ∀ i ∈ ids, i < start) :
    (ids ++ stretch start n).Nodup := by
  refine List.Nodup.append distinct (nodup_stretch start n) ?_
  intro i before now
  have low := (mem_stretch.mp now).1
  have high := beyond i before
  omega

/-- The numbers given out are those from 1 to `top`. -/
def Filled (ids : List Int) (top : Int) : Prop := 0 ≤ top ∧ ∀ i, i ∈ ids ↔ 1 ≤ i ∧ i ≤ top

theorem filled_nil : Filled [] 0 := by
  refine ⟨Int.le_refl _, fun i => ?_⟩
  simp only [List.not_mem_nil, false_iff]
  omega

theorem Filled.append (filled : Filled ids top) (positive : 1 ≤ start) (near : start ≤ top + 1) :
    Filled (ids ++ stretch start n) (max top (start + n - 1)) := by
  obtain ⟨nonneg, all⟩ := filled
  refine ⟨by omega, fun i => ?_⟩
  rw [List.mem_append, all, mem_stretch]
  omega

/-- A round that starts within the numbers given out repeats its first one. -/
theorem Filled.repeats (filled : Filled ids top) (positive : 1 ≤ start) (within : start ≤ top)
    (rounds : 0 < n) : ¬ (ids ++ stretch start n).Nodup := by
  intro distinct
  have before : start ∈ ids := (filled.2 start).mpr ⟨positive, within⟩
  have now : start ∈ stretch start n := mem_stretch.mpr ⟨Int.le_refl _, by omega⟩
  exact List.disjoint_of_nodup_append distinct before now

end Hwfa.Numbering
