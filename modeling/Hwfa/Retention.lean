import Mathlib.Data.List.DropRight

/-!
Lists that are pruned as they grow: of the elements that still count, the newest ones.

What counts changes with time, but only from the front: an element counts no longer
than those behind it.  Then it makes no difference how often a list was pruned on the
way, `retained_retained_append`.
-/

namespace Hwfa.Retention

universe u

variable {α : Type u} {cap : Nat} {q older newer : List α} {x : α}
variable {counts later : α → Prop} [DecidablePred counts] [DecidablePred later]

/-- The newest `cap` of the elements that count. -/
def retained (cap : Nat) (counts : α → Prop) [DecidablePred counts] (q : List α) : List α :=
  (q.filter counts).rtake cap

/-! ### The end of a list -/

theorem rtake_suffix (cap : Nat) (q : List α) : q.rtake cap <:+ q := by
  rw [List.rtake]
  exact List.drop_suffix _ _

theorem length_rtake_le (cap : Nat) (q : List α) : (q.rtake cap).length ≤ cap := by
  rw [List.rtake, List.length_drop]
  omega

theorem rtake_of_length_le (short : q.length ≤ cap) : q.rtake cap = q := by
  rw [List.rtake, Nat.sub_eq_zero_of_le short, List.drop_zero]

/-- Enough newer elements hide the older ones. -/
theorem rtake_append_of_le_length (enough : cap ≤ newer.length) :
    (older ++ newer).rtake cap = newer.rtake cap := by
  rw [List.rtake, List.rtake, List.length_append, List.drop_append]
  rw [List.drop_eq_nil_iff.mpr (by omega), List.nil_append]
  congr 1
  omega

/-- What `rtake` leaves out is in front, and if it is anything, the rest is full. -/
theorem eq_append_rtake (cap : Nat) (q : List α) :
    ∃ front, q = front ++ q.rtake cap ∧ (front = [] ∨ (q.rtake cap).length = cap) := by
  refine ⟨q.take (q.length - cap), ?_, ?_⟩
  · rw [List.rtake, List.take_append_drop]
  · rw [List.rtake, List.length_drop]
    by_cases short : q.length ≤ cap
    · rw [Nat.sub_eq_zero_of_le short, List.take_zero]
      exact .inl rfl
    · exact .inr (by omega)

/-! ### What is retained -/

@[simp] theorem retained_nil : retained cap counts [] = [] := by
  rw [retained, List.filter_nil, List.rtake_nil]

theorem retained_sublist : (retained cap counts q).Sublist q :=
  (rtake_suffix cap _).sublist.trans List.filter_sublist

theorem length_retained_le : (retained cap counts q).length ≤ cap := length_rtake_le cap _

/-- An element that counts is retained as long as there is room behind it. -/
theorem retained_append_cons (counted : counts x) (room : (retained cap counts newer).length < cap) :
    ∃ front, retained cap counts (older ++ x :: newer) = front ++ x :: retained cap counts newer := by
  have few : (newer.filter counts).length < cap := by
    have enough := eq_append_rtake cap (newer.filter counts)
    obtain ⟨front, split, none | full⟩ := enough
    · rw [split, none, List.nil_append]
      exact room
    · exact absurd full (Nat.ne_of_lt room)
  have whole : retained cap counts newer = newer.filter counts := rtake_of_length_le (Nat.le_of_lt few)
  have listed : (older ++ x :: newer).filter counts =
      older.filter counts ++ x :: newer.filter counts := by
    rw [List.filter_append, List.filter_cons_of_pos (by simpa using counted)]
  rw [whole, retained, listed, List.rtake]
  refine ⟨(older.filter counts).drop
    ((older.filter counts ++ x :: newer.filter counts).length - cap), ?_⟩
  rw [List.drop_append_of_le_length]
  rw [List.length_append, List.length_cons]
  omega

/-- Pruning at an earlier time makes no difference to pruning at a later one. -/
theorem retained_retained_append (lasting : ∀ x ∈ q, later x → counts x)
    (ordered : q.Pairwise fun x y => later x → later y) :
    retained cap later (retained cap counts q ++ newer) = retained cap later (q ++ newer) := by
  have still : (q.filter counts).filter later = q.filter later := by
    rw [List.filter_filter]
    refine List.filter_congr ?_
    intro x member
    by_cases holds : later x
    · simp [holds, lasting x member holds]
    · simp [holds]
  obtain ⟨front, split, full⟩ := eq_append_rtake cap (q.filter counts)
  have sorted : (front ++ retained cap counts q).Pairwise fun x y => later x → later y := by
    rw [retained, ← split]
    exact ordered.filter _
  have parts : q.filter later = front.filter later ++ (retained cap counts q).filter later := by
    calc q.filter later = (q.filter counts).filter later := still.symm
      _ = (front ++ retained cap counts q).filter later := congrArg (List.filter later ·) split
      _ = front.filter later ++ (retained cap counts q).filter later := List.filter_append _ _
  change ((retained cap counts q ++ newer).filter later).rtake cap = ((q ++ newer).filter later).rtake cap
  rw [List.filter_append, List.filter_append, parts, List.append_assoc]
  by_cases gone : front.filter later = []
  · rw [gone, List.nil_append]
  · -- One that was left out counts still, and so does every one behind it.
    obtain ⟨x, inside⟩ := List.exists_mem_of_ne_nil _ gone
    obtain ⟨left, holds⟩ := List.mem_filter.mp inside
    have behind : (retained cap counts q).filter later = retained cap counts q := by
      refine List.filter_eq_self.mpr ?_
      intro y member
      exact decide_eq_true ((List.pairwise_append.mp sorted).2.2 x left y member (of_decide_eq_true holds))
    have enough : (retained cap counts q).length = cap := by
      refine full.resolve_left ?_
      rintro rfl
      cases left
    symm
    refine rtake_append_of_le_length ?_
    rw [behind, List.length_append, enough]
    omega

end Hwfa.Retention
