/-!
Labelled transition machines and the rules their runs obey.

A machine answers an action with the next state, or with `none` when the action
is not enabled.  `Reached ok` collects the states of runs whose every step meets
`ok`; the unrestricted runs are `Reachable`.  Each safety result elsewhere is a
start case and a step case handed to `Reached.invariant`, or to
`Reached.invariant_under` when another invariant of the same runs is already
available.
-/

namespace Hwfa.Machines

universe u v w

/-- Start states and an executable step. -/
structure Machine (σ : Type u) (α : Type v) where
  start : σ → Prop
  step : σ → α → Option σ

namespace Machine

variable {σ : Type u} {α : Type v} {m : Machine σ α} {ok stricter : σ → α → Prop}
variable {s s' : σ} {a : α}

/-- The state a schedule leads to, if every one of its actions is enabled. -/
def run (m : Machine σ α) : σ → List α → Option σ
  | s, [] => some s
  | s, a :: rest => (m.step s a).bind fun next => m.run next rest

/-- The same machine, started where a run has led. -/
def startingAt (m : Machine σ α) (s : σ) : Machine σ α where
  start := fun t => t = s
  step := m.step

/-- The states of the runs whose every step meets `ok`, a condition on the
state before the step and the action taken. -/
inductive Reached (m : Machine σ α) (ok : σ → α → Prop) : σ → Prop where
  | start {s : σ} : m.start s → Reached m ok s
  | step {s s' : σ} {a : α} : Reached m ok s → ok s a → m.step s a = some s' → Reached m ok s'

/-- The states of unrestricted runs. -/
abbrev Reachable (m : Machine σ α) : σ → Prop := m.Reached fun _ _ => True

/-- A property that holds at the start and survives every admitted step holds
of every state reached. -/
theorem Reached.invariant (reached : m.Reached ok s) (inv : σ → Prop)
    (initial : ∀ s, m.start s → inv s)
    (preserved : ∀ s a s', inv s → ok s a → m.step s a = some s' → inv s') : inv s := by
  induction reached with
  | start started => exact initial _ started
  | step _ met moved ih => exact preserved _ _ _ ih met moved

/-- The same rule where the step case may use an invariant already proved. -/
theorem Reached.invariant_under {known : σ → Prop} (reached : m.Reached ok s) (inv : σ → Prop)
    (established : ∀ s, m.Reached ok s → known s)
    (initial : ∀ s, m.start s → inv s)
    (preserved : ∀ s a s', known s → inv s → ok s a → m.step s a = some s' → inv s') :
    inv s := by
  induction reached with
  | start started => exact initial _ started
  | step before met moved ih => exact preserved _ _ _ (established _ before) ih met moved

/-- Runs under a stricter condition are runs under a weaker one. -/
theorem Reached.weaken (reached : m.Reached stricter s)
    (weaker : ∀ s a, stricter s a → ok s a) : m.Reached ok s := by
  induction reached with
  | start started => exact .start started
  | step _ met moved ih => exact .step ih (weaker _ _ met) moved

/-- Every restricted run is a run. -/
theorem Reached.reachable (reached : m.Reached ok s) : m.Reachable s :=
  reached.weaken fun _ _ _ => trivial

/-- A machine whose every step is one of another machine, seen through `view`, runs that
machine. -/
theorem Reached.viewed {τ : Type w} {n : Machine τ α} (reached : m.Reached ok s) (view : σ → τ)
    (initial : ∀ s, m.start s → n.start (view s))
    (follows : ∀ s a s', m.step s a = some s' → n.step (view s) a = some (view s')) :
    n.Reachable (view s) := by
  induction reached with
  | start started => exact .start (initial _ started)
  | step _ _ moved ih => exact .step ih trivial (follows _ _ _ moved)

/-- Where each step keeps a property exactly if it meets the condition, the states that
have the property are those of the runs whose every step meets it. -/
theorem reached_iff {P : σ → Prop} (initial : ∀ s, m.start s → P s)
    (exact : ∀ s a s', m.Reachable s → m.step s a = some s' → (P s' ↔ P s ∧ ok s a)) :
    m.Reached ok s ↔ m.Reachable s ∧ P s := by
  constructor
  · intro reached
    refine ⟨reached.reachable, ?_⟩
    induction reached with
    | start started => exact initial _ started
    | step before met moved ih => exact (exact _ _ _ before.reachable moved).mpr ⟨ih, met⟩
  · rintro ⟨reachable, holds⟩
    induction reachable with
    | start started => exact .start started
    | step before _ moved ih =>
      obtain ⟨held, met⟩ := (exact _ _ _ before moved).mp holds
      exact .step (ih held) met moved

/-- The states of the runs that have a property after every step. -/
def Throughout (m : Machine σ α) (P : σ → Prop) : σ → Prop :=
  m.Reached fun s a => ∀ s', m.step s a = some s' → P s'

theorem Throughout.holds {P : σ → Prop} (throughout : m.Throughout P s)
    (initial : ∀ s, m.start s → P s) : P s :=
  Reached.invariant throughout P initial fun _ _ _ _ keeps moved => keeps _ moved

/-- Where each step from a state with a property keeps it exactly if it meets the condition,
the runs whose every step meets it are those whose every state has the property. -/
theorem reached_iff_throughout {P : σ → Prop} (initial : ∀ s, m.start s → P s)
    (exact : ∀ s a s', m.Reachable s → P s → m.step s a = some s' → (P s' ↔ ok s a)) :
    m.Reached ok s ↔ m.Throughout P s := by
  constructor
  · intro reached
    suffices both : P s ∧ m.Throughout P s from both.2
    induction reached with
    | start started => exact ⟨initial _ started, .start started⟩
    | step before met moved ih =>
      have keeps {s'} (moved : m.step _ _ = some s') : P s' :=
        (exact _ _ _ before.reachable ih.1 moved).mpr met
      exact ⟨keeps moved, .step ih.2 (fun _ => keeps) moved⟩
  · intro throughout
    suffices both : P s ∧ m.Reached ok s from both.2
    induction throughout with
    | start started => exact ⟨initial _ started, .start started⟩
    | step before kept moved ih =>
      have holds := kept _ moved
      exact ⟨holds, .step ih.2 ((exact _ _ _ before.reachable ih.1 moved).mp holds) moved⟩

/-- A schedule that runs through, from a state reached, ends in a state reached,
provided each of its actions meets the condition wherever it is taken. -/
theorem Reached.run (reached : m.Reached ok s) (schedule : List α)
    (met : ∀ s, ∀ a ∈ schedule, ok s a) (ran : m.run s schedule = some s') :
    m.Reached ok s' := by
  induction schedule generalizing s with
  | nil =>
    cases ran
    exact reached
  | cons a rest ih =>
    simp only [Machine.run, Option.bind_eq_some_iff] at ran
    obtain ⟨next, moved, ran⟩ := ran
    exact ih (.step reached (met s a List.mem_cons_self) moved)
      (fun s b member => met s b (List.mem_cons_of_mem _ member)) ran

/-- An unrestricted schedule from a start state. -/
theorem reachable_of_run (started : m.start s) (schedule : List α)
    (ran : m.run s schedule = some s') : m.Reachable s' :=
  Reached.run (.start started) schedule (fun _ _ _ => trivial) ran

/-- A schedule that stops at the first action that is not enabled or does not
meet the condition. -/
def checkedRun (m : Machine σ α) (ok : σ → α → Prop) [∀ s a, Decidable (ok s a)] :
    σ → List α → Option σ
  | s, [] => some s
  | s, a :: rest =>
    if ok s a then (m.step s a).bind fun next => m.checkedRun ok next rest else none

/-- A checked schedule ends in a state of the restricted runs. -/
theorem Reached.checkedRun [∀ s a, Decidable (ok s a)] (reached : m.Reached ok s)
    (schedule : List α) (ran : m.checkedRun ok s schedule = some s') : m.Reached ok s' := by
  induction schedule generalizing s with
  | nil =>
    cases ran
    exact reached
  | cons a rest ih =>
    simp only [Machine.checkedRun, Option.ite_none_right_eq_some, Option.bind_eq_some_iff] at ran
    obtain ⟨met, next, moved, ran⟩ := ran
    exact ih (.step reached met moved) ran

/-- A schedule that runs through to a state that looks so. -/
theorem reachable_of_observed {β : Type w} {schedule : List α} {look : σ → β} {seen : β}
    (observed : (m.run s schedule).map look = some seen) (started : m.start s) :
    ∃ s', m.Reachable s' ∧ look s' = seen := by
  obtain ⟨s', ran, same⟩ := Option.map_eq_some_iff.mp observed
  exact ⟨s', reachable_of_run started schedule ran, same⟩

/-- A checked schedule that runs through to a state that looks so. -/
theorem reached_of_observed {β : Type w} {schedule : List α} {look : σ → β} {seen : β}
    [∀ s a, Decidable (ok s a)] (observed : (m.checkedRun ok s schedule).map look = some seen)
    (reached : m.Reached ok s) : ∃ s', m.Reached ok s' ∧ look s' = seen := by
  obtain ⟨s', ran, same⟩ := Option.map_eq_some_iff.mp observed
  exact ⟨s', reached.checkedRun schedule ran, same⟩

end Machine

end Hwfa.Machines
