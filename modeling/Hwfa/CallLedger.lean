import Hwfa.CallEffects

/-!
The call log (`apps/mobile/src/call/manager.ts`, `start`, `onSignal`, `finish`; and
`apps/mobile/src/call/store.ts`, `addLog`).

The ledger runs the engine and notes each call that becomes the current one, and each
entry that is added to the log.  `start` asks for the connection before its permission and
claims the call after it, so that a call which rang or was placed in between is lost.
-/

namespace Hwfa.CallLedger

open Hwfa.Machines Hwfa.Json Hwfa.CallManager Hwfa.CallEffects

/-- What the engine holds of a call until it is over. -/
structure Call where
  callId : Value
  peerId : Option Text
  direction : Direction
  pendingOffer : Value

def callOf (c : Manager) : Call := ⟨c.callId, c.peerId, c.direction, c.pendingOffer⟩

/-- What a log entry has to say of a call. -/
abbrev Key := Value × Option Text × Direction

def Call.key (call : Call) : Key := (call.callId, call.peerId, call.direction)

def keyOf (entry : CallLogEntry) : Key := (entry.callId, some entry.peerId, entry.direction)

/-- The engine with what it has done; the latest come first. -/
structure Ledger where
  manager : Manager := {}
  current : Option Call := none
  /-- the calls placed, and the rings taken -/
  began : List Call := []
  /-- what `addLog` was called with -/
  entries : List CallLogEntry := []

namespace Ledger

/-- What an action does to the ledger, where the engine goes on as `c'`. -/
def notes (l : Ledger) (a : Action) (c' : Manager) : Ledger :=
  match kind l.manager a with
  | .dials | .rings =>
    { l with manager := c', current := some (callOf c'), began := callOf c' :: l.began }
  | .finishes =>
    { l with
      manager := c', current := none
      entries := (entry l.manager (outcome l.manager a) (instant a)).toList ++ l.entries }
  | _ => { l with manager := c' }

def step (l : Ledger) (a : Action) : Option Ledger := (l.manager.step a).map (l.notes a)

end Ledger

def ledger : Machine Ledger Action where
  start := fun l => l = {}
  step := Ledger.step

/-- The current call is held as it began, each call that is over has its entry and there are
no others, and the log holds the latest hundred. -/
structure Logged (l : Ledger) : Prop where
  current : ∀ call, l.current = some call → callOf l.manager = call
  none_ : l.current = none → l.manager.callId = .null
  each : l.began.map Call.key = l.current.toList.map Call.key ++ l.entries.map keyOf
  log : l.manager.log = l.entries.take 100

/-- A call is placed, or a ring taken, only where there is no call; and a call that is over
had an id and a peer to be logged under. -/
def Orderly (l : Ledger) (a : Action) : Bool :=
  match kind l.manager a with
  | .dials | .rings => l.current.isNone
  | .finishes => l.current.isNone || (l.manager.callId.truthy && named l.manager.peerId)
  | _ => true

/-- A start, the rest of it behind its permission, or a ring. -/
def begins (c : Manager) : Action → Bool
  | .start _ _ _ => true
  | .permitted id _ _ _ _ =>
    match c.tasks.lookup id with
    | some (.starting _ _ _) => true
    | _ => false
  | .signal _ signal _ _ => Manager.typeOf signal = some .ring
  | _ => false

/-- A call stays until it is finished, and no start and no ring touches its candidates. -/
structure Stays (l : Ledger) (a : Action) (l' : Ledger) : Prop where
  current : ∀ call, l.current = some call →
    kind l.manager a = .finishes ∨ l'.current = some call ∧ callOf l'.manager = call
  pendingIce : begins l.manager a → l'.manager.pendingIce = l.manager.pendingIce

variable {c c' : Manager} {l l' : Ledger} {a : Action}

theorem started_logged (started : ledger.start l) : Logged l := by
  subst started
  refine ⟨fun call current => ?_, fun _ => rfl, rfl, rfl⟩
  cases current

/-- The ledger runs the engine. -/
theorem manager_notes (a : Action) (c' : Manager) : (l.notes a c').manager = c' := by
  unfold Ledger.notes
  split <;> rfl

theorem moved_of_step (moved : ledger.step l a = some l') :
    ∃ c', l.manager.step a = some c' ∧ l' = l.notes a c' := by
  obtain ⟨c', moved, same⟩ := Option.map_eq_some_iff.mp moved
  exact ⟨c', moved, same.symm⟩

theorem reachable_manager (reachable : ledger.Reachable l) : callManager.Reachable l.manager := by
  refine reachable.viewed Ledger.manager (fun l started => ?_) fun l a l' moved => ?_
  · subst started
    exact rfl
  · obtain ⟨c', stepped, rfl⟩ := moved_of_step moved
    rw [manager_notes]
    exact stepped

theorem callOf_eq (call : SameCall c c') : callOf c' = callOf c := by
  rw [callOf, call.callId, call.peerId, call.direction, call.pendingOffer, callOf]

/-- What is not logged has no id, or no peer. -/
theorem entry_eq_none {outcome : Outcome} {now : Nat} :
    entry c outcome now = none ↔ (c.callId.truthy && named c.peerId) = false := by
  unfold entry
  cases c.peerId with
  | none => simp [named]
  | some peerId => simp [named]

/-- What is logged is logged under its own id, peer and direction. -/
theorem keyOf_entry {outcome : Outcome} {now : Nat} {e : CallLogEntry}
    (logs : entry c outcome now = some e) : keyOf e = (callOf c).key := by
  unfold entry at logs
  split at logs
  · next peerId peer =>
    split at logs
    · cases logs
      simp [keyOf, callOf, Call.key, peer]
    · cases logs
  · cases logs

/-- The latest hundred are the latest hundred of the latest hundred. -/
theorem addLog_take (entries : List CallLogEntry) (e : Option CallLogEntry) :
    addLog (entries.take 100) e = (e.toList ++ entries).take 100 := by
  cases e with
  | none => rfl
  | some e => simp [addLog, List.take_take]

/-- Nothing of it has changed. -/
theorem logged_of_same (logged : Logged l) (call : SameCall l.manager c') :
    Logged { l with manager := c' } := by
  refine ⟨fun now current => ?_, fun none => ?_, logged.each, call.log.trans logged.log⟩
  · exact (callOf_eq call).trans (logged.current now current)
  · exact call.callId.trans (logged.none_ none)

/-- A call begins. -/
theorem logged_begins (logged : Logged l) (log : c'.log = l.manager.log) :
    Logged { l with manager := c', current := some (callOf c'), began := callOf c' :: l.began } ↔
      l.current.isNone = true := by
  have each := logged.each
  constructor
  · intro begun
    have each' := begun.each
    simp only [List.map_cons, Option.toList_some, List.map_nil, List.cons_append, List.nil_append,
      List.cons.injEq, true_and] at each'
    rw [each'] at each
    have none := List.append_left_eq_self.mp each.symm
    rw [List.map_eq_nil_iff, Option.toList_eq_nil_iff] at none
    rw [none]
    rfl
  · intro none
    rw [Option.isNone_iff_eq_none] at none
    refine ⟨fun call current => ?_, fun gone => ?_, ?_, log.trans logged.log⟩
    · cases current
      rfl
    · cases gone
    · simpa [none] using each

/-- The current call is over. -/
theorem logged_finishes (logged : Logged l) (gone : Finishes l.manager a c') :
    Logged { l with
      manager := c', current := none
      entries := (entry l.manager (outcome l.manager a) (instant a)).toList ++ l.entries } ↔
        (l.current.isNone || (l.manager.callId.truthy && named l.manager.peerId)) = true := by
  have each := logged.each
  generalize logs : entry l.manager (outcome l.manager a) (instant a) = e
  have log : c'.log = (e.toList ++ l.entries).take 100 := by
    rw [gone.log, logged.log, logs, addLog_take]
  have finished (each : l.began.map Call.key = (e.toList ++ l.entries).map keyOf) :
      Logged { l with manager := c', current := none, entries := e.toList ++ l.entries } :=
    ⟨fun call current => absurd current (by simp), fun _ => gone.callId, each, log⟩
  cases current : l.current with
  | none =>
    have unlogged : e = none := by
      rw [← logs, entry_eq_none, logged.none_ current]
      rfl
    refine iff_of_true (finished ?_) rfl
    simpa [current, unlogged] using each
  | some call =>
    cases e with
    | none =>
      refine iff_of_false (fun finished => ?_) (by simp [entry_eq_none.mp logs])
      have each' := finished.each
      rw [each, current] at each'
      simp at each'
    | some e =>
      have named_ : (l.manager.callId.truthy && named l.manager.peerId) = true := by
        rw [← Bool.not_eq_false]
        intro unnamed
        rw [entry_eq_none.mpr unnamed] at logs
        cases logs
      refine iff_of_true (finished ?_) (by simp [named_])
      rw [each, current, Option.toList_some, Option.toList_some, List.map_append,
        List.map_singleton, List.map_singleton, keyOf_entry logs, logged.current call current]

/-- A step keeps the calls and the log in order exactly if it is orderly. -/
theorem step_logged (reachable : ledger.Reachable l) (logged : Logged l)
    (moved : ledger.step l a = some l') : Logged l' ↔ Orderly l a = true := by
  obtain ⟨c', stepped, rfl⟩ := moved_of_step moved
  cases effect_of_reached (reachable_manager reachable) stepped with
  | quiet is same =>
    simp only [Ledger.notes, Orderly, is, iff_true]
    exact logged_of_same logged same.call
  | activates is call | connects is call | denies is call | resets is call =>
    simp only [Ledger.notes, Orderly, is, iff_true]
    exact logged_of_same logged call
  | dials is begins | rings is begins =>
    simp only [Ledger.notes, Orderly, is]
    exact logged_begins logged begins.log
  | finishes is gone =>
    simp only [Ledger.notes, Orderly, is]
    exact logged_finishes logged gone

/-- The runs of orderly steps are those in which calls and log are in order at all times. -/
theorem reached_orderly_iff : ledger.Reached (fun l a => Orderly l a = true) l ↔
    ledger.Throughout Logged l :=
  Machine.reached_iff_throughout (fun _ => started_logged)
    fun _ _ _ reachable logged moved => step_logged reachable logged moved

/-! ## One step -/

/-- Neither a start nor a ring touches the candidates that wait. -/
theorem pendingIce_of_begins (is : begins c a) (moved : c.step a = some c') :
    c'.pendingIce = c.pendingIce := by
  cases a with
  | start =>
    cases moved
    unfold Manager.start
    split <;> rfl
  | permitted id granted built now random =>
    obtain ⟨stage, waits, moved⟩ := Option.bind_eq_some_iff.mp moved
    simp only [begins, waits] at is
    cases stage with
    | starting =>
      cases moved
      cases granted with
      | false => rfl
      | true => cases built <;> rfl
    | _ => cases is
  | signal fromPeerId signal built now =>
    cases moved
    simp only [begins, decide_eq_true_eq] at is
    simp only [Manager.onSignal, is, Manager.rings]
    split <;> rfl
  | _ => cases is

theorem step_stays (reachable : ledger.Reachable l) (logged : Logged l) (orderly : Orderly l a)
    (moved : ledger.step l a = some l') : Stays l a l' := by
  obtain ⟨c', stepped, rfl⟩ := moved_of_step moved
  refine ⟨fun call current => ?_, fun is => ?_⟩
  · have held := logged.current call current
    cases effect_of_reached (reachable_manager reachable) stepped with
    | quiet is same =>
      right
      simp only [Ledger.notes, is]
      exact ⟨current, (callOf_eq same.call).trans held⟩
    | activates is same | connects is same | denies is same | resets is same =>
      right
      simp only [Ledger.notes, is]
      exact ⟨current, (callOf_eq same).trans held⟩
    | dials is | rings is =>
      simp [Orderly, is, current] at orderly
    | finishes is => exact .inl is
  · rw [manager_notes]
    exact pendingIce_of_begins is stepped

/-- **Every call is logged once.** The runs whose every step is orderly are those in which
at all times each call that began is the current one or has its one entry; and a call stays
the current one until it is finished. -/
theorem calls_are_logged_once (l : Ledger) :
    (ledger.Reached (fun l a => Orderly l a = true) l ↔ ledger.Throughout Logged l) ∧
      (ledger.Reached (fun l a => Orderly l a = true) l → Logged l ∧
        ∀ a l', Orderly l a → ledger.step l a = some l' → Stays l a l') := by
  refine ⟨reached_orderly_iff, fun reached => ?_⟩
  have logged := (reached_orderly_iff.mp reached).holds fun _ => started_logged
  exact ⟨logged, fun a l' orderly moved => step_stays reached.reachable logged orderly moved⟩

/-- Bob rings. -/
def bobRings : Action :=
  .signal (utf16 "bob") (.object [
    (utf16 "type", .string (utf16 "ring")), (utf16 "callId", .string (utf16 "call")),
    (utf16 "sdp", .boolean true)]) true 0

/-- The log, how many calls began and how many were logged, and whether one is current. -/
def books (l : Ledger) : List Outcome × Nat × Nat × Bool :=
  (l.manager.log.map CallLogEntry.outcome, l.began.length, l.entries.length, l.current.isSome)

/-- A call that came in and is declined, and one that is placed and hung up. -/
theorem two_calls_are_logged : ∃ l, books l = ([.missed, .declined], 2, 2, false) ∧ Logged l ∧
    ∀ a l', Orderly l a → ledger.step l a = some l' → Stays l a l' := by
  have observed : (ledger.checkedRun (fun l a => Orderly l a = true) {}
      [bobRings, .decline 0, .start (utf16 "carol") none false, .permitted 0 true true 1 [],
        .hangup 2]).map books = some ([.missed, .declined], 2, 2, false) := by decide +kernel
  obtain ⟨l, reached, seen⟩ := Machine.reached_of_observed observed (.start rfl)
  exact ⟨l, seen, (calls_are_logged_once l).2 reached⟩

/-- Bob rings while the permission for a call to carol is asked for: her call takes the place
of his, which is not logged. -/
theorem ringing_call_is_lost : ¬ ∀ l, ledger.Reachable l → Logged l := by
  intro all
  have observed : (ledger.run {}
      [.start (utf16 "carol") none false, bobRings, .permitted 0 true true 1 [], .hangup 2]).map
        books = some ([.missed], 2, 1, false) := by decide +kernel
  obtain ⟨l, reachable, seen⟩ := Machine.reachable_of_observed observed rfl
  simp only [books, Prod.mk.injEq] at seen
  obtain ⟨-, began, entries, gone⟩ := seen
  have counted := congrArg List.length (all l reachable).each
  rw [Option.isSome_eq_false_iff, Option.isNone_iff_eq_none] at gone
  simp [gone, began, entries] at counted

end Hwfa.CallLedger
