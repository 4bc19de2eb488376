import Hwfa.CallEffects

/-!
The ICE candidates of calls (`apps/mobile/src/call/manager.ts`, `onSignal`, `accept`,
`drainIce`).

The history runs the engine and notes each candidate that comes in, and what each
connection should have got by the time its call was over.  A candidate that comes before
its ring is thrown away; one that is on its way to a connection goes to whichever
connection is held when its turn comes.
-/

namespace Hwfa.CallCandidates

open Hwfa.Machines Hwfa.Maps Hwfa.Slots Hwfa.Json Hwfa.CallManager Hwfa.CallEffects
open Hwfa.StatusStore (identical)

/-- The connection of a call that is over, whether it had its remote description, and the
candidates that had come in for the call. -/
structure Ended where
  connection : Nat
  described : Bool
  candidates : List Candidate

/-- The engine with what it was given. -/
structure History where
  manager : Manager := {}
  received : List (Value × Candidate) := []
  ended : List Ended := []

namespace History

/-- What had come in for the current call. -/
def expected (h : History) : List Candidate := meant h.manager.callId h.received

/-- The record of a call that is finished. -/
def closing (h : History) : List Ended :=
  match h.manager.pc.current with
  | some n => if h.manager.callId.truthy then [⟨n, described h.manager, h.expected⟩] else []
  | none => []

/-- What an action adds to the history, where the engine goes on as `c'`. -/
def notes (h : History) (a : Action) (c' : Manager) : History where
  manager := c'
  received := h.received ++ arrived h.manager a
  ended := if kind h.manager a = .finishes then h.closing ++ h.ended else h.ended

def step (h : History) (a : Action) : Option History := (h.manager.step a).map (h.notes a)

end History

def history : Machine History Action where
  start := fun h => h = {}
  step := History.step

/-- The promise of a remote description of the connection held has resolved, and no
`drainIce` has a candidate left. -/
def Settled (c : Manager) : Prop := ¬ DrainsNext c ∧ queued c = []

/-- Every candidate gets to the connection of its call, once, and to no other. -/
structure Delivers (h : History) : Prop where
  /-- no candidate comes in twice -/
  once : ∀ callId, (meant callId h.received).Nodup
  /-- what came in for the current call was passed to its connection, or is yet to be -/
  account : h.manager.callId.truthy → (passed h.manager ++ left h.manager).Perm h.expected
  /-- nothing is left once the remote description is set -/
  current : h.manager.callId.truthy → described h.manager → Settled h.manager →
    (passed h.manager).Perm h.expected
  /-- the connections of calls that are over got nothing else -/
  own : ∀ e ∈ h.ended, (candidatesOf h.manager e.connection).Subperm e.candidates
  /-- and everything, if the remote description was set -/
  ended : ∀ e ∈ h.ended, e.described → (candidatesOf h.manager e.connection).Perm e.candidates

/-- A call begins where nothing is on its way, and nothing has come in for it, or been passed
to the connection it is left with; `accept` replaces no connection that was passed a
candidate of the call; and a call is finished once nothing is on its way to a connection
that has its remote description. -/
def Unmixed (h : History) (a : Action) : Bool :=
  match kind h.manager a with
  | .dials =>
    !h.manager.callId.truthy && (left h.manager).isEmpty && (meant (begun a) h.received).isEmpty &&
      (constructed a || h.manager.pc.current.isNone)
  | .rings =>
    !(begun a).truthy || (left h.manager).isEmpty && (meant (begun a) h.received).isEmpty
  | .connects => !h.manager.callId.truthy || (passed h.manager).isEmpty
  | .finishes =>
    !(h.manager.callId.truthy && described h.manager) || (left h.manager).isEmpty
  | _ => true

/-- A call is over, and its connection with it. -/
structure Kept (c : Manager) (e : Ended) : Prop where
  there : e.connection < c.pc.made.length
  left_ : c.pc.current ≠ some e.connection
  own : (candidatesOf c e.connection).Subperm e.candidates
  all : e.described → (candidatesOf c e.connection).Perm e.candidates

/-- What holds after unmixed steps. -/
structure Accounted (h : History) : Prop where
  account : h.manager.callId.truthy → (passed h.manager ++ left h.manager).Perm h.expected
  idle : h.manager.callId.truthy → h.manager.pc.current = none → queued h.manager = []
  settling : Settling h.manager
  bounded : ∀ x ∈ h.received, x.2.signal < h.manager.signals
  once : (h.received.map fun x => x.2.signal).Nodup
  ended : ∀ e ∈ h.ended, Kept h.manager e

variable {c c' : Manager} {h h' : History} {a : Action} {e : Ended}

theorem meant_append (callId : Value) (first second : List (Value × Candidate)) :
    meant callId (first ++ second) = meant callId first ++ meant callId second := by
  simp [meant]

theorem meant_sublist (callId : Value) (candidates : List (Value × Candidate)) :
    (meant callId candidates).Sublist (candidates.map Prod.snd) :=
  List.filter_sublist.map Prod.snd

theorem Accounted.nodup (accounted : Accounted h) (callId : Value) :
    (meant callId h.received).Nodup := by
  have numbers : ((h.received.map Prod.snd).map Candidate.signal).Nodup := by
    rw [List.map_map]
    exact accounted.once
  exact (numbers.of_map _).sublist (meant_sublist ..)

/-- Nothing waits any more for a connection that has its remote description. -/
theorem Accounted.left_eq_nil (accounted : Accounted h) (is : described h.manager)
    (settled : Settled h.manager) : left h.manager = [] := by
  have pending : h.manager.pendingIce = [] := by
    by_contra waiting
    exact settled.1 (accounted.settling is waiting)
  rw [left, settled.2, pending]
  rfl

theorem Accounted.delivers (accounted : Accounted h) : Delivers h := by
  refine ⟨accounted.nodup, accounted.account, fun calling is settled => ?_,
    fun e over_ => (accounted.ended e over_).own, fun e over_ => (accounted.ended e over_).all⟩
  have account := accounted.account calling
  rwa [accounted.left_eq_nil is settled, List.append_nil] at account

/-! ## One step -/

/-- Only signals bring candidates, and each signal has a number of its own. -/
theorem arrived_cases (moved : c.step a = some c') : arrived c a = [] ∨
    ∃ callId candidate, arrived c a = [(callId, ⟨c.signals, candidate⟩)] ∧
      c'.signals = c.signals + 1 := by
  cases a with
  | signal fromPeerId signal built now =>
    cases moved
    by_cases brings : Manager.typeOf signal = some .ice && (signal.get "candidate").truthy && built
    · exact .inr ⟨_, _, if_pos brings, rfl⟩
    · exact .inl (if_neg brings)
  | _ => exact .inl rfl

/-- Candidates come for a call under way, or are thrown away. -/
theorem arrived_of_kind (is : kind c a ≠ .quiet) : arrived c a = [] := by
  cases a with
  | signal fromPeerId signal built now =>
    refine arrived_of_type fun type => is ?_
    simp only [kind, type]
  | _ => rfl

theorem signals_le (effect : Effect c a c') : c.signals ≤ c'.signals := by
  cases effect with
  | quiet _ same => exact same.call.signals
  | activates _ call | connects _ call | denies _ call | resets _ call => exact call.signals
  | dials _ begins | rings _ begins => exact begins.signals
  | finishes _ gone => exact gone.signals

/-- The numbers of the candidates after a step. -/
theorem Accounted.numbers (accounted : Accounted h)
    (grows : h.manager.signals ≤ c'.signals) (moved : h.manager.step a = some c') :
    (∀ x ∈ h.received ++ arrived h.manager a, x.2.signal < c'.signals) ∧
      ((h.received ++ arrived h.manager a).map fun x => x.2.signal).Nodup := by
  rcases arrived_cases moved with nothing | ⟨callId, candidate, comes, counted⟩
  · rw [nothing, List.append_nil]
    exact ⟨fun x member => Nat.lt_of_lt_of_le (accounted.bounded x member) grows, accounted.once⟩
  · rw [comes, counted]
    refine ⟨fun x member => ?_, ?_⟩
    · rcases List.mem_append.mp member with before | new
      · exact Nat.lt_succ_of_lt (accounted.bounded x before)
      · rw [List.mem_singleton.mp new]
        exact Nat.lt_succ_self _
    · rw [List.map_append, List.map_singleton, List.nodup_append]
      refine ⟨accounted.once, by simp, fun number member new latest => ?_⟩
      obtain ⟨x, before, rfl⟩ := List.mem_map.mp member
      rw [List.mem_singleton.mp latest]
      exact Nat.ne_of_lt (accounted.bounded x before)

theorem described_of_none (none : c.pc.current = none) : described c = false := by
  simp [described, Slot.value, none]

/-- A new connection has been passed nothing, and the others what they were. -/
theorem candidatesOf_fill (pc : c'.pc = c.pc.fill {}) {n : Nat} (there : n < c.pc.made.length) :
    candidatesOf c' n = candidatesOf c n := by
  rw [candidatesOf, pc, Slot.fill, List.getElem?_append_left there, candidatesOf]

theorem passed_fill (pc : c'.pc = c.pc.fill {}) : passed c' = [] := by
  simp [passed, candidatesOf, pc, Slot.fill]

theorem described_fill (pc : c'.pc = c.pc.fill {}) : described c' = false := by
  simp [described, Slot.value, pc, Slot.fill]

theorem settling_of_undescribed (undescribed : described c = false) : Settling c := by
  intro is
  rw [undescribed] at is
  cases is

/-- What is over stays as it is. -/
theorem Kept.carries {new : List Candidate} (kept : Kept c e) (carries : Carries c new c') :
    Kept c' e := by
  refine ⟨?_, ?_, ?_, ?_⟩
  · rw [carries.made]
    exact kept.there
  · rw [carries.current]
    exact kept.left_
  · rw [carries.others _ kept.left_]
    exact kept.own
  · rw [carries.others _ kept.left_]
    exact kept.all

theorem Kept.fill (kept : Kept c e) (pc : c'.pc = c.pc.fill {}) : Kept c' e := by
  have there := kept.there
  refine ⟨?_, ?_, ?_, ?_⟩
  · rw [pc, Slot.fill, List.length_append]
    exact Nat.lt_succ_of_lt there
  · rw [pc, Slot.current_fill]
    simp only [ne_eq, Option.some.injEq]
    omega
  · rw [candidatesOf_fill pc there]
    exact kept.own
  · rw [candidatesOf_fill pc there]
    exact kept.all

theorem Kept.of_pc (kept : Kept c e) (pc : c'.pc = c.pc) : Kept c' e := by
  have same : candidatesOf c' e.connection = candidatesOf c e.connection := by
    rw [candidatesOf, pc, candidatesOf]
  exact ⟨pc ▸ kept.there, pc ▸ kept.left_, same ▸ kept.own, same ▸ kept.all⟩

/-- The call goes on, and its candidates are carried along. -/
theorem Accounted.carries (accounted : Accounted h) (grows : h.manager.signals ≤ c'.signals)
    (moved : h.manager.step a = some c') (call : SameCall h.manager c')
    (carries : Carries h.manager (trickled h.manager a) c') :
    Accounted { h with manager := c', received := h.received ++ arrived h.manager a } := by
  obtain ⟨bounded, once⟩ := accounted.numbers grows moved
  refine ⟨fun calling => ?_, fun calling unheld => ?_, carries.settling accounted.settling, bounded,
    once, fun e over_ => (accounted.ended e over_).carries carries⟩
  · rw [call.callId] at calling
    rw [History.expected, call.callId, meant_append]
    refine (carries.perm (accounted.idle calling)).trans ?_
    refine .trans ?_ List.perm_append_comm
    exact (accounted.account calling).append_left _
  · rw [call.callId] at calling
    have unheld := carries.current.symm.trans unheld
    exact carries.idle unheld (accounted.idle calling unheld)

/-- `accept` makes its connection. -/
theorem Accounted.connects (accounted : Accounted h) (grows : h.manager.signals ≤ c'.signals)
    (moved : h.manager.step a = some c') (is : kind h.manager a = .connects)
    (unmixed : Unmixed h a) (call : SameCall h.manager c') (pc : c'.pc = h.manager.pc.fill {})
    (pendingIce : c'.pendingIce = h.manager.pendingIce)
    (queued_ : (queued c').Perm (queued h.manager)) :
    Accounted { h with manager := c', received := h.received ++ arrived h.manager a } := by
  obtain ⟨bounded, once⟩ := accounted.numbers grows moved
  refine ⟨fun calling => ?_, fun _ unheld => ?_, settling_of_undescribed (described_fill pc),
    bounded, once, fun e over_ => (accounted.ended e over_).fill pc⟩
  · rw [call.callId] at calling
    have account := accounted.account calling
    simp only [Unmixed, is, calling, Bool.not_true, Bool.false_or, List.isEmpty_iff] at unmixed
    rw [unmixed] at account
    rw [History.expected, call.callId, arrived_of_kind (by simp [is]), List.append_nil,
      passed_fill pc, left, pendingIce]
    exact (queued_.append_left _).trans account
  · rw [pc] at unheld
    cases unheld

/-- A call begins where nothing is on its way, without a connection or with a new one. -/
theorem Accounted.begins (accounted : Accounted h) (grows : h.manager.signals ≤ c'.signals)
    (moved : h.manager.step a = some c') (is : kind h.manager a ≠ .quiet)
    (begins : Begins h.manager a c')
    (clear : (begun a).truthy → left h.manager = [] ∧ meant (begun a) h.received = [])
    (undescribed : described c' = false) (unpassed : passed c' = [])
    (ended : ∀ e ∈ h.ended, Kept c' e) :
    Accounted { h with manager := c', received := h.received ++ arrived h.manager a } := by
  obtain ⟨bounded, once⟩ := accounted.numbers grows moved
  have emptied (calling : c'.callId.truthy) : left c' = [] ∧ meant c'.callId h.received = [] := by
    rw [begins.callId] at calling
    obtain ⟨empty, unknown⟩ := clear calling
    obtain ⟨pending, queued_⟩ := List.append_eq_nil_iff.mp empty
    have perm := begins.queued
    rw [queued_] at perm
    rw [begins.callId, left, begins.pendingIce, pending, List.perm_nil.mp perm]
    exact ⟨rfl, unknown⟩
  refine ⟨fun calling => ?_, fun calling _ => ?_, settling_of_undescribed undescribed, bounded,
    once, ended⟩
  · obtain ⟨empty, unknown⟩ := emptied calling
    rw [History.expected, arrived_of_kind is, List.append_nil, unpassed, empty, unknown]
    exact .refl _
  · exact (List.append_eq_nil_iff.mp (emptied calling).1).2

/-- What the connection held was passed, where the call with it is finished. -/
theorem Accounted.closes (accounted : Accounted h) (referring : CallMedia.Referring h.manager)
    (is : kind h.manager a = .finishes) (unmixed : Unmixed h a) (closing : e ∈ h.closing) :
    e.connection < h.manager.pc.made.length ∧
      (candidatesOf h.manager e.connection).Subperm e.candidates ∧
      (e.described → (candidatesOf h.manager e.connection).Perm e.candidates) := by
  unfold History.closing at closing
  split at closing
  · next n current =>
    split at closing
    · next calling =>
      rw [List.mem_singleton.mp closing]
      obtain ⟨p, made⟩ := held referring current
      have account := accounted.account calling
      have passed_ : passed h.manager = candidatesOf h.manager n := by rw [passed, current]; rfl
      rw [passed_] at account
      refine ⟨(List.getElem?_eq_some_iff.mp made).1, ?_, fun described_ => ?_⟩
      · exact (List.sublist_append_left ..).subperm.trans account.subperm
      · have described_ : described h.manager = true := described_
        simp only [Unmixed, is, calling, described_, Bool.and_self, Bool.not_true, Bool.false_or,
          List.isEmpty_iff] at unmixed
        rwa [unmixed, List.append_nil] at account
    · cases closing
  · cases closing

/-- The call is over, with nothing left for a connection that has its remote description. -/
theorem Accounted.finishes (accounted : Accounted h) (referring : CallMedia.Referring h.manager)
    (grows : h.manager.signals ≤ c'.signals) (moved : h.manager.step a = some c')
    (is : kind h.manager a = .finishes) (unmixed : Unmixed h a) (gone : Finishes h.manager a c') :
    Accounted { h with
      manager := c', received := h.received ++ arrived h.manager a
      ended := h.closing ++ h.ended } := by
  obtain ⟨bounded, once⟩ := accounted.numbers grows moved
  have uncalled : c'.callId.truthy = false := by
    rw [gone.callId]
    rfl
  refine ⟨fun calling => absurd calling (by simp [uncalled]),
    fun calling => absurd calling (by simp [uncalled]),
    settling_of_undescribed (described_of_none gone.current), bounded, once, fun e over_ => ?_⟩
  have held_ : e.connection < h.manager.pc.made.length ∧
      (candidatesOf h.manager e.connection).Subperm e.candidates ∧
      (e.described → (candidatesOf h.manager e.connection).Perm e.candidates) := by
    rcases List.mem_append.mp over_ with closing | before
    · exact accounted.closes referring is unmixed closing
    · have kept := accounted.ended e before
      exact ⟨kept.there, kept.own, kept.all⟩
  refine ⟨?_, by simp [gone.current], ?_, ?_⟩
  · rw [gone.made]
    exact held_.1
  · rw [gone.candidates]
    exact held_.2.1
  · rw [gone.candidates]
    exact held_.2.2

/-! ## Runs -/

theorem started_accounted (started : history.start h) : Accounted h := by
  subst started
  refine ⟨fun calling => absurd calling (by decide), fun _ _ => rfl,
    settling_of_undescribed rfl, fun x member => ?_, .nil, fun e over_ => ?_⟩
  · cases member
  · cases over_

theorem moved_of_step (moved : history.step h a = some h') :
    ∃ c', h.manager.step a = some c' ∧ h' = h.notes a c' := by
  obtain ⟨c', moved, same⟩ := Option.map_eq_some_iff.mp moved
  exact ⟨c', moved, same.symm⟩

/-- The history runs the engine. -/
theorem reachable_manager (reachable : history.Reachable h) : callManager.Reachable h.manager := by
  refine reachable.viewed History.manager (fun h started => ?_) fun h a h' moved => ?_
  · subst started
    exact rfl
  · obtain ⟨c', stepped, rfl⟩ := moved_of_step moved
    exact stepped

/-- What does not finish a call leaves the calls that are over. -/
theorem notes_of_kind (is : kind h.manager a ≠ .finishes) (c' : Manager) : h.notes a c' =
    { h with manager := c', received := h.received ++ arrived h.manager a } := by
  rw [History.notes, if_neg is]

theorem step_accounted (reachable : history.Reachable h) (accounted : Accounted h)
    (unmixed : Unmixed h a) (moved : history.step h a = some h') : Accounted h' := by
  obtain ⟨c', stepped, rfl⟩ := moved_of_step moved
  have effect := effect_of_reached (reachable_manager reachable) stepped
  have grows := signals_le effect
  cases effect with
  | quiet is same =>
    rw [notes_of_kind (by simp [is])]
    exact accounted.carries grows stepped same.call same.carries
  | activates is call carries | denies is call carries | resets is call carries =>
    have brings : trickled h.manager a = [] := by
      rw [trickled, arrived_of_kind (by simp [is])]
      rfl
    rw [notes_of_kind (by simp [is])]
    exact accounted.carries grows stepped call (brings ▸ carries)
  | connects is call shown pc pendingIce queued_ =>
    rw [notes_of_kind (by simp [is])]
    exact accounted.connects grows stepped is unmixed call pc pendingIce queued_
  | dials is begins status direction pendingOffer pc =>
    rw [notes_of_kind (by simp [is])]
    simp only [Unmixed, is, Bool.and_eq_true, Bool.not_eq_true', List.isEmpty_iff,
      Bool.or_eq_true, Option.isNone_iff_eq_none] at unmixed
    obtain ⟨⟨⟨-, empty⟩, unknown⟩, connection⟩ := unmixed
    have bare : described c' = false ∧ passed c' = [] ∧ ∀ e ∈ h.ended, Kept c' e := by
      cases built : constructed a with
      | true =>
        rw [if_pos built] at pc
        exact ⟨described_fill pc, passed_fill pc, fun e over_ => (accounted.ended e over_).fill pc⟩
      | false =>
        rw [if_neg (by simp [built])] at pc
        have unheld : c'.pc.current = none := by
          rw [pc]
          simpa [built] using connection
        exact ⟨described_of_none unheld, passed_of_none unheld,
          fun e over_ => (accounted.ended e over_).of_pc pc⟩
    exact accounted.begins grows stepped (by simp [is]) begins (fun _ => ⟨empty, unknown⟩) bare.1
      bare.2.1 bare.2.2
  | rings is begins status direction pc free =>
    rw [notes_of_kind (by simp [is])]
    have unheld : c'.pc.current = none := by
      rw [pc]
      simp only [Manager.busy, Bool.or_eq_false_iff, Option.isSome_eq_false_iff,
        Option.isNone_iff_eq_none] at free
      exact free.1
    refine accounted.begins grows stepped (by simp [is]) begins (fun calling => ?_)
      (described_of_none unheld) (passed_of_none unheld)
      fun e over_ => (accounted.ended e over_).of_pc pc
    simpa [Unmixed, is, calling] using unmixed
  | finishes is gone =>
    have over_ : h.notes a c' = { h with
        manager := c', received := h.received ++ arrived h.manager a
        ended := h.closing ++ h.ended } := by rw [History.notes, if_pos is]
    rw [over_]
    exact accounted.finishes (CallMedia.reached_referring (reachable_manager reachable)) grows
      stepped is unmixed gone

theorem reached_accounted (reached : history.Reached (fun h a => Unmixed h a = true) h) :
    Accounted h := by
  induction reached with
  | start started => exact started_accounted started
  | step before unmixed moved ih => exact step_accounted before.reachable ih unmixed moved

/-- **No candidate is lost.** In a run whose every step is unmixed each candidate gets to the
connection of its call, once, and to no other. -/
theorem candidates_are_delivered (h : History)
    (reached : history.Reached (fun h a => Unmixed h a = true) h) : Delivers h :=
  (reached_accounted reached).delivers

/-- A signal of bob's for his call, with what else is in it. -/
def ofBob (type : String) (fields : List (Text × Value)) : Action :=
  .signal (utf16 "bob") (.object (
    [(utf16 "type", .string (utf16 type)), (utf16 "callId", .string (utf16 "call"))] ++
      fields)) true 0

def ring : Action := ofBob "ring" [(utf16 "sdp", .boolean true)]

def ice : Action := ofBob "ice" [(utf16 "candidate", .boolean true)]

/-- The call is taken, up to where the offer is in effect. -/
def takes : List Action :=
  [.accept, .permitted 0 true true 0 [], .acquired 0 (some []) true, .resolved 0 .undefined true 0,
    .described 0]

/-- The buffered candidates are passed on. -/
def drains : List Action := [.resolved 0 .undefined true 0, .resolved 0 .undefined true 0]

/-- The signals whose candidates were passed, and those that brought one for the call. -/
def tally (h : History) : List Nat × List Nat × Bool :=
  ((passed h.manager).map Candidate.signal, h.expected.map Candidate.signal, described h.manager)

/-- A candidate comes before the call is taken, and another before the first is passed on. -/
theorem early_candidates_are_delivered : ∃ h, tally h = ([2, 1], [1, 2], true) ∧ Delivers h := by
  have observed : (history.checkedRun (fun h a => Unmixed h a = true) {}
      ([ring, ice] ++ takes ++ [ice] ++ drains)).map tally = some ([2, 1], [1, 2], true) := by
    decide +kernel
  obtain ⟨h, reached, seen⟩ := Machine.reached_of_observed observed (.start rfl)
  exact ⟨h, seen, candidates_are_delivered h reached⟩

theorem settled_of_plain (others_ : (FinMap.values c.tasks).all plain = true) : Settled c := by
  rw [List.all_eq_true] at others_
  refine ⟨?_, ?_⟩
  · rintro ⟨id, answering, n, waits, -⟩
    have is := others_ _ (FinMap.mem_values.mpr ⟨id, waits⟩)
    cases is
  · rw [queued, List.flatMap_eq_nil_iff]
    exact fun stage waits => (plain_iff.mp (others_ stage waits)).2

/-- Whether there is a call, and whether any method has to do with `drainIce`. -/
def rests (c : Manager) : Bool × Bool := (c.callId.truthy, (FinMap.values c.tasks).all plain)

/-- The candidate comes before the ring: it is not passed to the connection. -/
theorem candidate_before_ring_is_lost : ¬ ∀ h, history.Reachable h → Delivers h := by
  intro all
  have observed : (history.run {} ([ice, ring] ++ takes ++ drains)).map
      (fun h => (tally h, rests h.manager)) = some (([], [0], true), true, true) := by
    decide +kernel
  obtain ⟨h, reachable, seen⟩ := Machine.reachable_of_observed observed rfl
  obtain ⟨tallied, rested⟩ := Prod.mk.inj seen
  simp only [tally, Prod.mk.injEq] at tallied
  obtain ⟨none, one, described_⟩ := tallied
  obtain ⟨calling, plain_⟩ := Prod.mk.inj rested
  have all_ := (all h reachable).current calling described_ (settled_of_plain plain_)
  have counted := (all_.map Candidate.signal).length_eq
  rw [none, one] at counted
  cases counted

end Hwfa.CallCandidates
