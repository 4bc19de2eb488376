/-!
Regular expressions over an arbitrary alphabet, with a word boundary, and whether a
text has a part that one matches.

A place in a text is what comes after it and the letter before it, which is all that a
boundary looks at.  A pattern leads from a place to the places where a match that begins
there can end; a text is found to match if some place in it has such an end.
-/

namespace Hwfa.Regex

universe u

inductive Pattern (α : Type u) where
  | nothing
  | letter (p : α → Bool)
  | boundary
  | seq (first second : Pattern α)
  | either (first second : Pattern α)
  /-- at least so often, and at most so often more -/
  | times (p : Pattern α) (least more : Nat)
  /-- once or more -/
  | many (p : Pattern α)

structure Place (α : Type u) where
  before : Option α
  rest : List α

variable {α : Type u}

/-- The places that so many steps lead to. -/
def exactly (step : Place α → List (Place α)) : Nat → List (Place α) → List (Place α)
  | 0, places => places
  | n + 1, places => exactly step n (places.flatMap step)

/-- The places that at most so many steps lead to. -/
def upTo (step : Place α → List (Place α)) : Nat → List (Place α) → List (Place α)
  | 0, places => places
  | n + 1, places => places ++ upTo step n (places.flatMap step)

/-- One letter on, if it meets the test. -/
def Place.letter (p : α → Bool) : Place α → List (Place α)
  | ⟨_, []⟩ => []
  | ⟨_, a :: rest⟩ => if p a then [⟨some a, rest⟩] else []

/-- A word begins or ends here. -/
def Place.isBoundary (word : α → Bool) (at_ : Place α) : Bool :=
  at_.before.any word != at_.rest.head?.any word

/-- Where a match that begins at a place can end. -/
def Pattern.ends (word : α → Bool) : Pattern α → Place α → List (Place α)
  | .nothing, at_ => [at_]
  | .letter p, at_ => at_.letter p
  | .boundary, at_ => if at_.isBoundary word then [at_] else []
  | .seq first second, at_ => (first.ends word at_).flatMap (second.ends word)
  | .either first second, at_ => first.ends word at_ ++ second.ends word at_
  | .times p least more, at_ => upTo (p.ends word) more (exactly (p.ends word) least [at_])
  | .many p, at_ => upTo (p.ends word) at_.rest.length (p.ends word at_)

/-- The places of a text. -/
def places : Option α → List α → List (Place α)
  | before, [] => [⟨before, []⟩]
  | before, a :: rest => ⟨before, a :: rest⟩ :: places (some a) rest

/-- Whether some part of a text matches. -/
def Pattern.test (word : α → Bool) (p : Pattern α) (text : List α) : Bool :=
  (places none text).any fun at_ => !(p.ends word at_).isEmpty

/-- One pattern after the other. -/
def inOrder : List (Pattern α) → Pattern α
  | [] => .nothing
  | [p] => p
  | p :: rest => .seq p (inOrder rest)

/-- Any one of the patterns. -/
def oneOf : List (Pattern α) → Pattern α
  | [] => .letter fun _ => false
  | [p] => p
  | p :: rest => .either p (oneOf rest)

def optional (p : Pattern α) : Pattern α := .times p 0 1

/-! ### Matches in a longer text -/

/-- A place of a text, once a letter stands before the text and others behind it. -/
def Place.within (edge : α) (behind : List α) (at_ : Place α) : Place α :=
  ⟨some (at_.before.getD edge), at_.rest ++ behind⟩

variable {word : α → Bool} {edge : α} {behind : List α} {step : Place α → List (Place α)}
variable {f : Place α → Place α} {x e : Place α}

theorem mem_exactly (steps : ∀ x e, e ∈ step x → f e ∈ step (f x)) (n : Nat)
    {from_ to_ : List (Place α)} (starts : ∀ x ∈ from_, f x ∈ to_)
    (reached : e ∈ exactly step n from_) :
    f e ∈ exactly step n to_ := by
  induction n generalizing from_ to_ with
  | zero => exact starts e reached
  | succ n ih =>
    apply ih _ reached
    intro y member
    obtain ⟨x, inside, there⟩ := List.mem_flatMap.mp member
    exact List.mem_flatMap.mpr ⟨f x, starts x inside, steps x y there⟩

theorem mem_upTo_of_mem {places : List (Place α)} (n : Nat) (inside : e ∈ places) :
    e ∈ upTo step n places := by
  cases n with
  | zero => exact inside
  | succ n => exact List.mem_append_left _ inside

theorem mem_upTo (steps : ∀ x e, e ∈ step x → f e ∈ step (f x)) {n m : Nat} (longer : n ≤ m)
    {from_ to_ : List (Place α)} (starts : ∀ x ∈ from_, f x ∈ to_)
    (reached : e ∈ upTo step n from_) :
    f e ∈ upTo step m to_ := by
  induction n generalizing m from_ to_ with
  | zero => exact mem_upTo_of_mem m (starts e reached)
  | succ n ih =>
    obtain ⟨m, rfl⟩ : ∃ k, m = k + 1 := ⟨m - 1, by omega⟩
    rcases List.mem_append.mp reached with here | later
    · exact List.mem_append_left _ (starts e here)
    · apply List.mem_append_right
      apply ih (by omega) _ later
      intro y member
      obtain ⟨x, inside, there⟩ := List.mem_flatMap.mp member
      exact List.mem_flatMap.mpr ⟨f x, starts x inside, steps x y there⟩

/-- A text that stands apart has its boundaries where it had them. -/
theorem isBoundary_within (before : word edge = false) (after : behind.head?.any word = false)
    (at_ : Place α) : (at_.within edge behind).isBoundary word = at_.isBoundary word := by
  obtain ⟨letter, rest⟩ := at_
  have left : (some (letter.getD edge)).any word = letter.any word := by
    cases letter with
    | none => exact before
    | some a => rfl
  have right : (rest ++ behind).head?.any word = rest.head?.any word := by
    cases rest with
    | nil => exact after
    | cons a rest => rfl
  unfold Place.within Place.isBoundary
  rw [left, right]

/-- No pattern looks further than a boundary does, so whatever matches in a text also
matches where the text stands apart in a longer one. -/
theorem Pattern.ends_within (before : word edge = false) (after : behind.head?.any word = false)
    (p : Pattern α) (x e : Place α) (ends : e ∈ p.ends word x) :
    e.within edge behind ∈ p.ends word (x.within edge behind) := by
  induction p generalizing x e with
  | nothing =>
    cases List.mem_singleton.mp ends
    exact List.mem_singleton_self _
  | letter q =>
    obtain ⟨letter, rest⟩ := x
    cases rest with
    | nil => cases ends
    | cons a rest =>
      simp only [Pattern.ends, Place.letter] at ends
      split at ends
      · next meets =>
        cases List.mem_singleton.mp ends
        simp [Pattern.ends, Place.letter, Place.within, meets]
      · cases ends
  | boundary =>
    simp only [Pattern.ends] at ends ⊢
    rw [isBoundary_within before after]
    split at ends
    · next here =>
      cases List.mem_singleton.mp ends
      rw [if_pos here]
      exact List.mem_singleton_self _
    · cases ends
  | seq first second first_ih second_ih =>
    obtain ⟨middle, found, ends⟩ := List.mem_flatMap.mp ends
    exact List.mem_flatMap.mpr ⟨_, first_ih x middle found, second_ih middle e ends⟩
  | either first second first_ih second_ih =>
    rcases List.mem_append.mp ends with left | right
    · exact List.mem_append_left _ (first_ih x e left)
    · exact List.mem_append_right _ (second_ih x e right)
  | times q least more ih =>
    apply mem_upTo ih (Nat.le_refl more) _ ends
    intro y reached
    apply mem_exactly ih least _ reached
    intro z here
    cases List.mem_singleton.mp here
    exact List.mem_singleton_self _
  | many q ih =>
    have longer : x.rest.length ≤ (x.within edge behind).rest.length := by
      rw [Place.within, List.length_append]
      omega
    exact mem_upTo ih longer (ih x) ends

theorem mem_places_self (before : Option α) (rest : List α) :
    ⟨before, rest⟩ ∈ places before rest := by
  cases rest with
  | nil => exact List.mem_singleton_self _
  | cons a rest => exact List.mem_cons_self

theorem mem_places_within {before : Option α} {text : List α} (inside : x ∈ places before text) :
    x.within edge behind ∈ places (some (before.getD edge)) (text ++ behind) := by
  induction text generalizing before with
  | nil =>
    cases List.mem_singleton.mp inside
    exact mem_places_self ..
  | cons a rest ih =>
    rcases List.mem_cons.mp inside with rfl | later
    · exact List.mem_cons_self
    · exact List.mem_cons_of_mem _ (ih later)

theorem mem_places_append {before : Option α} {a : α} {rest : List α} (front : List α)
    (inside : x ∈ places (some a) rest) : x ∈ places before (front ++ a :: rest) := by
  induction front generalizing before with
  | nil => exact List.mem_cons_of_mem _ inside
  | cons c front ih => exact List.mem_cons_of_mem _ ih

/-- A text that matches does so wherever it stands apart. -/
theorem Pattern.test_within {p : Pattern α} {text : List α} (before : word edge = false)
    (after : behind.head?.any word = false) (front : List α) (matched : p.test word text = true) :
    p.test word (front ++ edge :: (text ++ behind)) = true := by
  obtain ⟨x, inside, found⟩ := List.any_eq_true.mp matched
  have nonempty : p.ends word x ≠ [] := by
    intro nothing
    rw [nothing] at found
    cases found
  obtain ⟨e, ends⟩ := List.exists_mem_of_ne_nil _ nonempty
  refine List.any_eq_true.mpr ⟨x.within edge behind, ?_, ?_⟩
  · exact mem_places_append front (mem_places_within inside)
  · have still := Pattern.ends_within before after p x e ends
    cases there : p.ends word (x.within edge behind) with
    | nil =>
      rw [there] at still
      cases still
    | cons _ _ => rfl

end Hwfa.Regex
