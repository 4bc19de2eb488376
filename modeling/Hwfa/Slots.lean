/-!
Slots: a variable that refers to one object at a time, with every object it has
ever referred to.

`released` is what an object has to be when the slot lets go of it.  A slot is
`Clean` if it has released every object but the one it refers to; the lemmas say
of each operation what it takes to keep it so.
-/

namespace Hwfa.Slots

universe u

/-- The objects in the order in which they were made, and which of them the
variable refers to. -/
structure Slot (α : Type u) where
  made : List α := []
  current : Option Nat := none

namespace Slot

variable {α : Type u}

/-- A new object, referred to from now on. -/
def fill (s : Slot α) (x : α) : Slot α := ⟨s.made ++ [x], some s.made.length⟩

def clear (s : Slot α) : Slot α := { s with current := none }

/-- Something happens to one of the objects. -/
def updateAt (s : Slot α) (n : Nat) (f : α → α) : Slot α := { s with made := s.made.modify n f }

/-- Something happens to the object referred to, if there is one. -/
def update (s : Slot α) (f : α → α) : Slot α :=
  match s.current with
  | some n => s.updateAt n f
  | none => s

/-- The object referred to. -/
def value (s : Slot α) : Option α := s.current.bind fun n => s.made[n]?

/-- Every object but the one referred to has been released. -/
def Clean (released : α → Prop) (s : Slot α) : Prop :=
  ∀ n x, s.made[n]? = some x → s.current ≠ some n → released x

/-- The object referred to is there, and has not been released. -/
def Live (released : α → Prop) (s : Slot α) : Prop :=
  ∀ n, s.current = some n → ∃ x, s.made[n]? = some x ∧ ¬ released x

variable {released : α → Prop} {s : Slot α} {f : α → α} {x : α} {n : Nat}

@[simp] theorem current_fill : (s.fill x).current = some s.made.length := rfl

@[simp] theorem current_clear : s.clear.current = none := rfl

@[simp] theorem current_updateAt : (s.updateAt n f).current = s.current := rfl

/-- What became of an object after something has happened to one. -/
theorem made_updateAt (m : Nat) :
    (s.updateAt n f).made[m]? = (s.made[m]?).map fun x => if n = m then f x else x := by
  change (s.made.modify n f)[m]? = _
  rw [List.getElem?_modify]
  rfl

theorem clean_empty : Clean released ({} : Slot α) := fun n x made => by simp at made

theorem live_empty : Live released ({} : Slot α) := fun n current => by simp at current

theorem live_clear : Live released s.clear := fun n current => by simp at current

theorem live_fill (unreleased : ¬ released x) : Live released (s.fill x) := by
  rintro n ⟨⟩
  exact ⟨x, by simp [fill], unreleased⟩

/-- A slot may be filled if it is empty, and otherwise loses what it referred to. -/
theorem clean_fill (live : Live released s) :
    Clean released (s.fill x) ↔ Clean released s ∧ s.current = none := by
  have old {n : Nat} {y : α} (made : s.made[n]? = some y) :
      (s.fill x).made[n]? = some y ∧ (s.fill x).current ≠ some n := by
    obtain ⟨bound, -⟩ := List.getElem?_eq_some_iff.mp made
    exact ⟨(List.getElem?_append_left bound).trans made, by simp; omega⟩
  constructor
  · intro clean
    refine ⟨fun n y made _ => clean n y (old made).1 (old made).2, ?_⟩
    cases current : s.current with
    | none => rfl
    | some n =>
      obtain ⟨y, made, unreleased⟩ := live n current
      exact absurd (clean n y (old made).1 (old made).2) unreleased
  · rintro ⟨clean, empty⟩ n y made other
    have bound : n < s.made.length := by
      have := (List.getElem?_eq_some_iff.mp made).1
      simp only [fill, List.length_append, List.length_singleton] at this
      simp only [current_fill, ne_eq, Option.some.injEq] at other
      omega
    refine clean n y ((List.getElem?_append_left bound).symm.trans made) ?_
    simp [empty]

/-- A slot after something happened to its objects by which none was released or taken
back. -/
structure Same (released : α → Prop) (s s' : Slot α) : Prop where
  current : s'.current = s.current
  clean : Clean released s' ↔ Clean released s
  live : Live released s → Live released s'

theorem Same.refl (s : Slot α) : Same released s s := ⟨rfl, Iff.rfl, id⟩

theorem Same.trans {s' s'' : Slot α} (first : Same released s s') (second : Same released s' s'') :
    Same released s s'' :=
  ⟨second.current.trans first.current, second.clean.trans first.clean,
    fun live => second.live (first.live live)⟩

theorem same_updateAt (same : ∀ x, released (f x) ↔ released x) :
    Same released s (s.updateAt n f) := by
  have kept (m : Nat) (x : α) : released (if n = m then f x else x) ↔ released x := by
    split
    · exact same x
    · rfl
  refine ⟨rfl, ⟨?_, ?_⟩, ?_⟩
  · intro clean m x made other
    exact (kept m x).mp (clean m _ (by rw [made_updateAt, made]; rfl) other)
  · intro clean m y made other
    rw [made_updateAt] at made
    obtain ⟨x, before, rfl⟩ := Option.map_eq_some_iff.mp made
    exact (kept m x).mpr (clean m x before other)
  · intro live m current
    obtain ⟨x, made, unreleased⟩ := live m current
    exact ⟨_, by rw [made_updateAt, made]; rfl, fun gone => unreleased ((kept m x).mp gone)⟩

theorem same_update (same : ∀ x, released (f x) ↔ released x) : Same released s (s.update f) := by
  unfold update
  split
  · exact same_updateAt same
  · exact .refl s

/-- A slot that releases what it refers to before it lets go of it stays clean. -/
theorem clean_release (releases : ∀ x, released (f x)) (clean : Clean released s) :
    Clean released (s.update f).clear := by
  intro m y made _
  cases current : s.current with
  | none =>
    have unchanged : (s.update f).clear.made = s.made := by simp [clear, update, current]
    rw [unchanged] at made
    exact clean m y made (by simp [current])
  | some n =>
    have changed : (s.update f).clear.made[m]? = (s.updateAt n f).made[m]? := by
      simp [clear, update, current]
    rw [changed, made_updateAt] at made
    obtain ⟨x, before, rfl⟩ := Option.map_eq_some_iff.mp made
    by_cases here : n = m
    · rw [if_pos here]
      exact releases x
    · rw [if_neg here]
      exact clean m x before (by simpa [current] using here)

end Slot

end Hwfa.Slots
