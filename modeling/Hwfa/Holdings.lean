import Mathlib.Data.List.Perm.Subperm
import Mathlib.Data.List.Nodup

/-!
Tokens that are issued once and then move between places.

`Apart issued held` says that every token some place holds was issued, and that
no token is held twice, neither by two places nor twice by one.  The three rules
are the ways such a system moves: places lose tokens, tokens pass from one place
to another, and a token that was never issued appears at one place.
-/

namespace Hwfa.Holdings

universe u v

variable {ι : Type u} {α : Type v}

/-- Everything held was issued, and nothing is held twice. -/
structure Apart (issued : α → Prop) (held : ι → List α) : Prop where
  nodup : ∀ i, (held i).Nodup
  unique : ∀ i j a, a ∈ held i → a ∈ held j → i = j
  allowed : ∀ i, ∀ a ∈ held i, issued a

variable {issued issued' : α → Prop} {held held' : ι → List α} {i j : ι}

theorem nodup_of_subperm {l l' : List α} (fewer : l.Subperm l') (nodup : l'.Nodup) : l.Nodup := by
  obtain ⟨middle, perm, sublist⟩ := fewer
  exact perm.nodup_iff.mp (nodup.sublist sublist)

/-- Two places taken together hold nothing twice. -/
theorem Apart.nodup_append (apart : Apart issued held) (other : i ≠ j) :
    (held i ++ held j).Nodup := by
  refine List.nodup_append.mpr ⟨apart.nodup i, apart.nodup j, ?_⟩
  rintro a first b second rfl
  exact other (apart.unique i j a first second)

/-- Places lose tokens, and more tokens count as issued. -/
theorem Apart.shrink (apart : Apart issued held) (weaker : ∀ a, issued a → issued' a)
    (fewer : ∀ k, (held' k).Subperm (held k)) : Apart issued' held' where
  nodup k := nodup_of_subperm (fewer k) (apart.nodup k)
  unique k l a first second := apart.unique k l a ((fewer k).subset first) ((fewer l).subset second)
  allowed k a member := weaker a (apart.allowed k a ((fewer k).subset member))

/-- Tokens pass between two places. -/
theorem Apart.move (apart : Apart issued held) (other : i ≠ j)
    (moved : (held' i ++ held' j).Subperm (held i ++ held j))
    (rest : ∀ k, k ≠ i → k ≠ j → (held' k).Subperm (held k)) : Apart issued held' := by
  have pair := List.nodup_append.mp (nodup_of_subperm moved (apart.nodup_append other))
  -- where a token held afterwards was held before
  have origin (k : ι) (a : α) (member : a ∈ held' k) :
      (k = i ∨ k = j) ∧ (a ∈ held i ∨ a ∈ held j) ∨ k ≠ i ∧ k ≠ j ∧ a ∈ held k := by
    by_cases first : k = i
    · subst first
      exact .inl ⟨.inl rfl, List.mem_append.mp (moved.subset (List.mem_append_left _ member))⟩
    · by_cases second : k = j
      · subst second
        exact .inl ⟨.inr rfl, List.mem_append.mp (moved.subset (List.mem_append_right _ member))⟩
      · exact .inr ⟨first, second, (rest k first second).subset member⟩
  have within {k l : ι} {a : α} (near : k = i ∨ k = j) (near' : l = i ∨ l = j)
      (atK : a ∈ held' k) (atL : a ∈ held' l) : k = l := by
    rcases near with rfl | rfl <;> rcases near' with rfl | rfl
    · rfl
    · exact absurd rfl (pair.2.2 a atK a atL)
    · exact absurd rfl (pair.2.2 a atL a atK)
    · rfl
  have outside {l : ι} {a : α} (before : a ∈ held i ∨ a ∈ held j) (li : l ≠ i) (lj : l ≠ j)
      (elsewhere : a ∈ held l) : False := by
    rcases before with before | before
    · exact li (apart.unique l i a elsewhere before)
    · exact lj (apart.unique l j a elsewhere before)
  refine ⟨?_, ?_, ?_⟩
  · intro k
    by_cases first : k = i
    · subst first
      exact pair.1
    · by_cases second : k = j
      · subst second
        exact pair.2.1
      · exact nodup_of_subperm (rest k first second) (apart.nodup k)
  · intro k l a atK atL
    rcases origin k a atK with ⟨near, before⟩ | ⟨ki, kj, before⟩ <;>
      rcases origin l a atL with ⟨near', before'⟩ | ⟨li, lj, before'⟩
    · exact within near near' atK atL
    · exact (outside before li lj before').elim
    · exact (outside before' ki kj before).elim
    · exact apart.unique k l a before before'
  · intro k a member
    rcases origin k a member with ⟨_, held | held⟩ | ⟨_, _, held⟩
    · exact apart.allowed i a held
    · exact apart.allowed j a held
    · exact apart.allowed k a held

/-- A token that was never issued appears at one place. -/
theorem Apart.add {a : α} (apart : Apart issued held) (weaker : ∀ b, issued b → issued' b)
    (new : issued' a) (fresh : ¬ issued a) (added : (held' i).Subperm (a :: held i))
    (rest : ∀ k, k ≠ i → (held' k).Subperm (held k)) : Apart issued' held' := by
  have absent (k : ι) : a ∉ held k := fun member => fresh (apart.allowed k a member)
  have origin (k : ι) (b : α) (member : b ∈ held' k) : (k = i ∧ b = a) ∨ b ∈ held k := by
    by_cases own : k = i
    · subst own
      exact (List.mem_cons.mp (added.subset member)).imp (fun same => ⟨rfl, same⟩) id
    · exact .inr ((rest k own).subset member)
  refine ⟨?_, ?_, ?_⟩
  · intro k
    by_cases own : k = i
    · subst own
      exact nodup_of_subperm added (List.nodup_cons.mpr ⟨absent k, apart.nodup k⟩)
    · exact nodup_of_subperm (rest k own) (apart.nodup k)
  · intro k l b atK atL
    rcases origin k b atK with ⟨rfl, rfl⟩ | before <;> rcases origin l b atL with ⟨rfl, same⟩ | before'
    · rfl
    · exact absurd before' (absent l)
    · exact absurd (same ▸ before) (absent k)
    · exact apart.unique k l b before before'
  · intro k b member
    rcases origin k b member with ⟨_, rfl⟩ | before
    · exact new
    · exact weaker b (apart.allowed k b before)

end Hwfa.Holdings
