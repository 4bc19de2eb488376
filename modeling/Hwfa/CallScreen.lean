import Hwfa.CallEffects

/-!
The call screen (`apps/mobile/src/screens/CallScreen.tsx`, `CallOverlay`; and
`apps/mobile/src/call/manager.ts` and `store.ts`).

The screen shows what the call store holds, which the engine tells it.  But the store is
also reset by timers, which do not ask what has begun since they were set, and it is told
of a permission that was denied and of a call that is active without a look at the call.
-/

namespace Hwfa.CallScreen

open Hwfa.Machines Hwfa.Maps Hwfa.Json Hwfa.CallManager Hwfa.CallEffects

/-! ## The overlay -/

inductive Control where
  | decline
  | accept
  | mute
  | flip
  | camera
  | end_
  | cancel
  deriving DecidableEq

/-- The controls, where there is an overlay. -/
def overlay (call : CallState) : Option (List Control) :=
  match call.status with
  | .idle => none
  | .incoming => some [.decline, .accept]
  | .active => some (.mute :: (if call.video then [.flip, .camera] else []) ++ [.end_])
  | .outgoing => some [.cancel]
  | .ended => some []

/-- What takes a call or ends it. -/
def handles : Control → Bool
  | .decline | .accept | .end_ | .cancel => true
  | _ => false

/-- Whether a call is under way. -/
def live : CallStatus → Bool
  | .outgoing | .incoming | .active => true
  | _ => false

/-- The screen shows the call that the engine has, and only while it has one. -/
structure Reflects (c : Manager) : Prop where
  call : c.callId.truthy → c.state.callId = c.callId ∧ live c.state.status
  controls : c.callId.truthy → ∃ controls, overlay c.state = some controls ∧
    ∃ control ∈ controls, handles control
  none_ : c.callId.truthy = false → c.state.status = .idle ∨ c.state.status = .ended

/-- The screen shows the call that the engine has; without one it may show what a timer
will take away. -/
structure Agrees (c : Manager) : Prop where
  call : c.callId.truthy → c.state.callId = c.callId ∧ live c.state.status
  none_ : c.callId.truthy = false → live c.state.status → 0 < c.timers

/-- The store is reset, and told of a permission denied, only while there is no call; and
told of a call only while there is one, or a timer is set. -/
def Timely (c : Manager) (a : Action) : Bool :=
  match kind c a with
  | .resets | .denies => !c.callId.truthy
  | .activates => c.callId.truthy || 0 < c.timers
  | .rings => (begun a).truthy || 0 < c.timers
  | _ => true

variable {c c' : Manager} {a : Action}

theorem live_iff (status : CallStatus) : live status ↔ status ≠ .idle ∧ status ≠ .ended := by
  cases status <;> simp [live]

/-- While a call is under way there is a way to take it or to end it. -/
theorem overlay_of_live {call : CallState} (is : live call.status) :
    ∃ controls, overlay call = some controls ∧ ∃ control ∈ controls, handles control := by
  unfold overlay
  split
  · next idle =>
    rw [idle] at is
    cases is
  · exact ⟨_, rfl, .decline, by simp, rfl⟩
  · exact ⟨_, rfl, .end_, by simp, rfl⟩
  · exact ⟨_, rfl, .cancel, by simp, rfl⟩
  · next ended =>
    rw [ended] at is
    cases is

theorem Agrees.reflects (agrees : Agrees c) (quiet : c.Quiescent) : Reflects c := by
  refine ⟨agrees.call, fun calling => overlay_of_live (agrees.call calling).2, fun none => ?_⟩
  by_cases is : live c.state.status
  · exact absurd (agrees.none_ none is) (by simp [quiet.2])
  · rw [live_iff] at is
    tauto

theorem started_agrees (started : callManager.start c) : Agrees c := by
  subst started
  exact ⟨fun calling => absurd calling (by decide), fun _ is => absurd is (by decide)⟩

theorem agrees_of_call (calling : c.callId.truthy) :
    Agrees c ↔ c.state.callId = c.callId ∧ live c.state.status := by
  constructor
  · intro agrees
    exact agrees.call calling
  · intro shown
    exact ⟨fun _ => shown, fun none => absurd calling (by simp [none])⟩

theorem agrees_of_none (none : c.callId.truthy = false) :
    Agrees c ↔ (live c.state.status → 0 < c.timers) := by
  constructor
  · intro agrees
    exact agrees.none_ none
  · intro waits
    exact ⟨fun calling => absurd calling (by simp [none]), fun _ => waits⟩

/-- What has the same call, shown the same. -/
theorem agrees_of_same (agrees : Agrees c) (callId : c'.callId = c.callId) (shown : Shows c c') :
    Agrees c' := by
  refine ⟨?_, ?_⟩
  · rw [callId, shown.status, shown.callId]
    exact agrees.call
  · rw [callId, shown.status, shown.timers]
    exact agrees.none_

/-- A step leaves the screen in agreement with the engine exactly if it is timely. -/
theorem step_agrees (effect : Effect c a c') (agrees : Agrees c) :
    Agrees c' ↔ Timely c a = true := by
  cases effect with
  | quiet is same =>
    have timely : Timely c a = true := by rw [Timely, is]
    exact iff_of_true (agrees_of_same agrees same.call.callId same.shows_) timely
  | connects is call shown =>
    have timely : Timely c a = true := by rw [Timely, is]
    exact iff_of_true (agrees_of_same agrees call.callId shown) timely
  | activates is call carries status shown timers =>
    by_cases calling : c.callId.truthy
    · rw [agrees_of_call (by rw [call.callId, calling]), shown, status, call.callId]
      simp [Timely, is, calling, (agrees.call calling).1, live]
    · simp only [Bool.not_eq_true] at calling
      rw [agrees_of_none (by rw [call.callId, calling]), status, timers]
      simp [Timely, is, calling, live]
  | dials is begins status =>
    have calling : c'.callId.truthy := by rw [begins.callId, truthy_of_dials is]
    rw [agrees_of_call calling, status, begins.shown]
    simp [Timely, is, live]
  | rings is begins status =>
    by_cases calling : c'.callId.truthy
    · rw [agrees_of_call calling, status, begins.shown]
      rw [begins.callId] at calling
      simp [Timely, is, calling, live]
    · simp only [Bool.not_eq_true] at calling
      rw [agrees_of_none calling, status, begins.timers]
      rw [begins.callId] at calling
      simp [Timely, is, calling, live]
  | finishes is gone =>
    have none : c'.callId.truthy = false := by rw [gone.callId]; rfl
    rw [agrees_of_none none, gone.status]
    simp [Timely, is, live]
  | denies is call carries status =>
    by_cases calling : c.callId.truthy
    · rw [agrees_of_call (by rw [call.callId, calling]), status]
      simp [Timely, is, calling, live]
    · simp only [Bool.not_eq_true] at calling
      rw [agrees_of_none (by rw [call.callId, calling]), status]
      simp [Timely, is, calling, live]
  | resets is call carries state =>
    by_cases calling : c.callId.truthy
    · rw [agrees_of_call (by rw [call.callId, calling]), state]
      simp [Timely, is, calling, live, IDLE]
    · simp only [Bool.not_eq_true] at calling
      rw [agrees_of_none (by rw [call.callId, calling]), state]
      simp [Timely, is, calling, live, IDLE]

/-- The runs of timely steps are those in which the screen agrees with the engine at all
times. -/
theorem reached_timely_iff : callManager.Reached (fun c a => Timely c a = true) c ↔
    callManager.Throughout Agrees c :=
  Machine.reached_iff_throughout (fun _ => started_agrees)
    fun _ _ _ reachable agrees moved => step_agrees (effect_of_reached reachable moved) agrees

/-- **The screen reflects the engine.** The runs whose every step is timely are those in
which the screen agrees with the engine at all times; where they come to rest, the screen
shows the call of the engine, and controls for it, and otherwise none. -/
theorem screen_reflects_engine (c : Manager) :
    (callManager.Reached (fun c a => Timely c a = true) c ↔ callManager.Throughout Agrees c) ∧
      (callManager.Reached (fun c a => Timely c a = true) c → c.Quiescent → Reflects c) := by
  refine ⟨reached_timely_iff, fun reached quiet => ?_⟩
  have agrees := (reached_timely_iff.mp reached).holds fun _ => started_agrees
  exact agrees.reflects quiet

/-- A ring from bob. -/
def ringOf (callId : String) : Action :=
  .signal (utf16 "bob") (.object [
    (utf16 "type", .string (utf16 "ring")), (utf16 "callId", .string (utf16 callId)),
    (utf16 "sdp", .boolean true)]) true 0

/-- What is to come, whether there is a call, and what is shown. -/
def glance (c : Manager) : Nat × Nat × Bool × Option (List Control) :=
  ((FinMap.values c.tasks).length, c.timers, c.callId.truthy, overlay c.state)

theorem quiescent_of_glance {calling : Bool} {shown : Option (List Control)}
    (seen : glance c = (0, 0, calling, shown)) :
    c.Quiescent ∧ c.callId.truthy = calling ∧ overlay c.state = shown := by
  simp only [glance, Prod.mk.injEq, List.length_eq_zero_iff] at seen
  obtain ⟨waiting, timers, calls, shows_⟩ := seen
  exact ⟨⟨waiting, timers⟩, calls, shows_⟩

/-- A call is declined, and bob rings again once its timer has fired. -/
theorem second_ring_is_shown : ∃ c, overlay c.state = some [.decline, .accept] ∧ Reflects c := by
  have observed : (callManager.checkedRun (fun c a => Timely c a = true) {}
      [ringOf "first", .decline 0, .timer, ringOf "second"]).map glance =
        some (0, 0, true, some [.decline, .accept]) := by decide +kernel
  obtain ⟨c, reached, seen⟩ := Machine.reached_of_observed observed (.start rfl)
  obtain ⟨quiet, -, shown⟩ := quiescent_of_glance seen
  exact ⟨c, shown, (screen_reflects_engine c).2 reached quiet⟩

/-- Bob rings again before the timer has fired: the phone rings, and the screen shows
nothing. -/
theorem second_ring_is_hidden : ¬ ∀ c, callManager.Reachable c → c.Quiescent → Reflects c := by
  intro reflects
  have observed : (callManager.run {} [ringOf "first", .decline 0, ringOf "second", .timer]).map
      glance = some (0, 0, true, none) := by decide +kernel
  obtain ⟨c, reachable, seen⟩ := Machine.reachable_of_observed observed rfl
  obtain ⟨quiet, calling, hidden⟩ := quiescent_of_glance seen
  obtain ⟨controls, shown, -⟩ := (reflects c reachable quiet).controls calling
  rw [hidden] at shown
  cases shown

end Hwfa.CallScreen
