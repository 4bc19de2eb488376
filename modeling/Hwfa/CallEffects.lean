import Hwfa.CallMedia

/-!
What one step of the call engine does to the call, to what the app shows of it, and to
the ICE candidates on their way to the connection.

An action is of a `Kind`, which the branches of the source decide before it is taken;
`effect_of_step` says for each kind what has become of them.
-/

namespace Hwfa.CallEffects

open Hwfa.Machines Hwfa.Maps Hwfa.Slots Hwfa.Json Hwfa.CallManager
open Hwfa.StatusStore (identical)
open Hwfa.CallMedia (Referring Closed)

/-! ## Kinds of actions -/

inductive Kind where
  | quiet
  /-- the call is active from now on -/
  | activates
  /-- `accept` makes its connection -/
  | connects
  /-- a call is placed -/
  | dials
  /-- a ring is taken -/
  | rings
  | finishes
  /-- a permission to place a call is denied -/
  | denies
  /-- `callStore.reset` -/
  | resets
  deriving DecidableEq

def kind (c : Manager) : Action → Kind
  | .timer => .resets
  | .decline _ | .hangup _ => .finishes
  | .signal _ signal _ _ =>
    match Manager.typeOf signal with
    | some .ring => if c.busy then .quiet else .rings
    | some .accept =>
      if c.pc.current.isSome && identical (signal.get "callId") c.callId &&
          !(signal.get "sdp").truthy then .activates
      else .quiet
    | some .decline | some .hangup =>
      if identical (signal.get "callId") c.callId then .finishes else .quiet
    | _ => .quiet
  | .permitted id granted built _ _ =>
    match c.tasks.lookup id with
    | some (.starting _ _ _) => if granted then .dials else .denies
    | some .accepting => if granted then if built then .connects else .quiet else .finishes
    | _ => .quiet
  | .resolved id _ _ _ =>
    match c.tasks.lookup id with
    | some (.drained .onSignal) | some (.describingAnswer _) => .activates
    | _ => .quiet
  | .connectionstatechange _ lost _ => if lost && c.callId.truthy then .finishes else .quiet
  | _ => .quiet

/-- The candidate that a signal brings, with the call that it is for. -/
def arrived (c : Manager) : Action → List (Value × Candidate)
  | .signal _ signal built _ =>
    if Manager.typeOf signal = some .ice && (signal.get "candidate").truthy && built then
      [(signal.get "callId", ⟨c.signals, signal.get "candidate"⟩)]
    else []
  | _ => []

/-- The candidates for one call. -/
def meant (callId : Value) (candidates : List (Value × Candidate)) : List Candidate :=
  (candidates.filter fun x => identical x.1 callId).map Prod.snd

def trickled (c : Manager) (a : Action) : List Candidate := meant c.callId (arrived c a)

/-- The id of a call that is placed or taken. -/
def begun : Action → Value
  | .permitted _ _ _ now random => newCallId now random
  | .signal _ signal _ _ => signal.get "callId"
  | _ => .null

/-- Whether a constructor takes what it is given. -/
def constructed : Action → Bool
  | .permitted _ _ built _ _ => built
  | _ => false

/-- How a call is logged that an action finishes. -/
def outcome (c : Manager) : Action → Outcome
  | .hangup _ => if c.answered then .completed else .missed
  | .signal _ signal _ _ =>
    if Manager.typeOf signal = some .hangup then if c.answered then .completed else .missed
    else .declined
  | .connectionstatechange _ _ _ => if c.answered then .completed else .failed
  | _ => .declined

def instant : Action → Nat
  | .decline now | .hangup now | .signal _ _ _ now | .permitted _ _ _ now _
  | .resolved _ _ _ now | .connectionstatechange _ _ now => now
  | _ => 0

/-- What `finish` logs, if it logs the call. -/
def entry (c : Manager) (outcome : Outcome) (now : Nat) : Option CallLogEntry :=
  match c.peerId with
  | some peerId =>
    if c.callId.truthy && peerId ≠ [] then
      some ⟨c.callId, peerId, c.state.peerName, c.video, c.direction, outcome, now⟩
    else none
  | none => none

/-- The latest of them come first, and a hundred are kept. -/
def addLog (log : List CallLogEntry) : Option CallLogEntry → List CallLogEntry
  | some entry => (entry :: log).take 100
  | none => log

/-! ## Candidates on their way -/

/-- The candidates that a method has yet to pass on. -/
def queue : Stage → List Candidate
  | .draining _ queued => queued
  | _ => []

def queued (c : Manager) : List Candidate := (FinMap.values c.tasks).flatMap queue

/-- The candidates that have been passed to a connection. -/
def candidatesOf (c : Manager) (n : Nat) : List Candidate :=
  (c.pc.made[n]?).elim [] PeerConnection.candidates

/-- The candidates that have been passed to the connection held. -/
def passed (c : Manager) : List Candidate := c.pc.current.elim [] (candidatesOf c)

/-- The candidates that have yet to be passed to it. -/
def left (c : Manager) : List Candidate := c.pendingIce ++ queued c

/-- Whether the connection held has its remote description. -/
def described (c : Manager) : Bool := c.pc.value.any PeerConnection.remoteDescription

/-- What goes on with `drainIce`. -/
def applied : Stage → Bool
  | .applying _ _ applied => applied
  | _ => false

/-- The method that has set the remote description of the connection held. -/
def DrainsNext (c : Manager) : Prop :=
  ∃ id answering n, c.tasks.lookup id = some (.applying answering n true) ∧ c.pc.current = some n

/-- Nothing stays in the buffer of a connection that has its remote description. -/
def Settling (c : Manager) : Prop := described c → c.pendingIce ≠ [] → DrainsNext c

/-- What has nothing to do with `drainIce`. -/
def plain (stage : Stage) : Bool := !applied stage && (queue stage).isEmpty

/-- The methods that wait have got their numbers. -/
def Numbered (c : Manager) : Prop := ∀ id stage, c.tasks.lookup id = some stage → id < c.calls

/-! ## Effects -/

structure SameCall (c c' : Manager) : Prop where
  callId : c'.callId = c.callId
  peerId : c'.peerId = c.peerId
  direction : c'.direction = c.direction
  pendingOffer : c'.pendingOffer = c.pendingOffer
  log : c'.log = c.log
  signals : c.signals ≤ c'.signals
  numbered : Numbered c → Numbered c'

/-- The app shows the same of the call. -/
structure Shows (c c' : Manager) : Prop where
  status : c'.state.status = c.state.status
  callId : c'.state.callId = c.state.callId
  timers : c'.timers = c.timers

/-- No candidate is lost, repeated or made up, and `new` has come in. -/
structure Carries (c : Manager) (new : List Candidate) (c' : Manager) : Prop where
  current : c'.pc.current = c.pc.current
  made : c'.pc.made.length = c.pc.made.length
  others : ∀ n, c.pc.current ≠ some n → candidatesOf c' n = candidatesOf c n
  idle : c.pc.current = none → queued c = [] → queued c' = []
  perm : (c.pc.current = none → queued c = []) →
    (passed c' ++ left c').Perm (new ++ (passed c ++ left c))
  settling : Settling c → Settling c'

structure Quiet (c : Manager) (new : List Candidate) (c' : Manager) : Prop where
  call : SameCall c c'
  shows_ : Shows c c'
  carries : Carries c new c'

variable {c c' c'' : Manager} {a : Action} {id : Nat} {new : List Candidate} {stage before : Stage}

/-! ### Composition -/

theorem SameCall.trans (first : SameCall c c') (second : SameCall c' c'') : SameCall c c'' :=
  ⟨second.callId.trans first.callId, second.peerId.trans first.peerId,
    second.direction.trans first.direction, second.pendingOffer.trans first.pendingOffer,
    second.log.trans first.log, Nat.le_trans first.signals second.signals,
    fun numbered => second.numbered (first.numbered numbered)⟩

theorem Shows.trans (first : Shows c c') (second : Shows c' c'') : Shows c c'' :=
  ⟨second.status.trans first.status, second.callId.trans first.callId,
    second.timers.trans first.timers⟩

theorem Carries.trans (first : Carries c new c') (second : Carries c' [] c'') :
    Carries c new c'' := by
  refine ⟨second.current.trans first.current, second.made.trans first.made,
    fun n other => ?_, fun none empty => ?_, fun empty => ?_,
    fun settling => second.settling (first.settling settling)⟩
  · rw [second.others n (first.current ▸ other), first.others n other]
  · exact second.idle (first.current.trans none) (first.idle none empty)
  · refine .trans (second.perm fun none => ?_) (first.perm empty)
    have none := first.current.symm.trans none
    exact first.idle none (empty none)

theorem Quiet.trans (first : Quiet c new c') (second : Quiet c' [] c'') : Quiet c new c'' :=
  ⟨first.call.trans second.call, first.shows_.trans second.shows_,
    first.carries.trans second.carries⟩

/-- Nothing of it has changed. -/
theorem carries_of_eq (pc : c'.pc = c.pc) (pendingIce : c'.pendingIce = c.pendingIce)
    (tasks : c'.tasks = c.tasks) : Carries c [] c' := by
  have same : queued c' = queued c := by rw [queued, tasks, queued]
  have of (n : Nat) : candidatesOf c' n = candidatesOf c n := by rw [candidatesOf, pc, candidatesOf]
  refine ⟨by rw [pc], by rw [pc], fun n _ => of n, fun _ empty => same.trans empty, fun _ => ?_,
    fun settling => ?_⟩
  · rw [passed, passed, left, left, pc, pendingIce, same, funext of]
    exact .refl _
  · rw [Settling, described, DrainsNext, pc, pendingIce, tasks]
    exact settling

/-- Only media, what else is shown and what was sent may differ. -/
theorem quiet_of_eq (same : c' = { c with
    local_ := c'.local_, remote := c'.remote, sent := c'.sent
    state := { c'.state with status := c.state.status, callId := c.state.callId } }) :
    Quiet c [] c' := by
  rw [same]
  exact ⟨⟨rfl, rfl, rfl, rfl, rfl, Nat.le_refl _, fun numbered => numbered⟩, ⟨rfl, rfl, rfl⟩,
    carries_of_eq rfl rfl rfl⟩

/-! ### Methods that wait -/

theorem plain_iff : plain stage ↔ applied stage = false ∧ queue stage = [] := by
  simp [plain]

/-- What a method that stops waiting leaves behind. -/
theorem queued_of_waits (waits : c.tasks.lookup id = some before) :
    (queued c).Perm (queue before ++ (FinMap.values (c.tasks.erase id)).flatMap queue) := by
  have split := (FinMap.values_perm_cons waits).flatMap_right queue
  rwa [List.flatMap_cons] at split

theorem queued_proceeds (stage : Stage) : queued (c.proceeds id stage) =
    queue stage ++ (FinMap.values (c.tasks.erase id)).flatMap queue := by
  rw [queued, Manager.proceeds, FinMap.values_insert, List.flatMap_cons]

/-- The candidates are where they were; only methods have gone on. -/
theorem carries_of_queued (pc : c'.pc = c.pc) (pendingIce : c'.pendingIce = c.pendingIce)
    (queued_of : (queued c').Perm (queued c)) (drains : DrainsNext c → DrainsNext c') :
    Carries c [] c' := by
  have of (n : Nat) : candidatesOf c' n = candidatesOf c n := by rw [candidatesOf, pc, candidatesOf]
  refine ⟨by rw [pc], by rw [pc], fun n _ => of n, fun _ empty => ?_, fun _ => ?_,
    fun settling => ?_⟩
  · rw [empty] at queued_of
    exact List.perm_nil.mp queued_of
  · rw [passed, passed, left, left, pc, pendingIce, funext of]
    exact (queued_of.append_left _).append_left _
  · intro described_ waiting
    rw [described, pc] at described_
    rw [pendingIce] at waiting
    exact drains (settling described_ waiting)

/-- A method that waits for something else is another one. -/
theorem DrainsNext.other (drains : DrainsNext c) (waits : c.tasks.lookup id = some before)
    (was : applied before = false) : ∃ id' answering n, id' ≠ id ∧
      c.tasks.lookup id' = some (.applying answering n true) ∧ c.pc.current = some n := by
  obtain ⟨id', answering, n, found, current⟩ := drains
  refine ⟨id', answering, n, ?_, found, current⟩
  rintro rfl
  rw [waits, Option.some.injEq] at found
  rw [found] at was
  cases was

theorem drainsNext_proceeds (waits : c.tasks.lookup id = some before)
    (was : applied before = false) (drains : DrainsNext c) : DrainsNext (c.proceeds id stage) := by
  obtain ⟨id', answering, n, other, found, current⟩ := drains.other waits was
  refine ⟨id', answering, n, ?_, current⟩
  rw [Manager.proceeds, FinMap.lookup_insert_apply, if_neg other]
  exact found

theorem drainsNext_ends (waits : c.tasks.lookup id = some before) (was : applied before = false)
    (drains : DrainsNext c) : DrainsNext (c.ends id) := by
  obtain ⟨id', answering, n, other, found, current⟩ := drains.other waits was
  refine ⟨id', answering, n, ?_, current⟩
  rw [Manager.ends, FinMap.lookup_erase_apply, if_neg other]
  exact found

theorem numbered_proceeds (waits : c.tasks.lookup id = some before) (numbered : Numbered c) :
    Numbered (c.proceeds id stage) := by
  intro id' stage' found
  rw [Manager.proceeds, FinMap.lookup_insert_apply] at found
  split at found
  · next same =>
    subst same
    exact numbered _ _ waits
  · exact numbered _ _ found

theorem numbered_ends (numbered : Numbered c) : Numbered (c.ends id) := by
  intro id' stage' found
  rw [Manager.ends, FinMap.lookup_erase_apply] at found
  split at found
  · cases found
  · exact numbered _ _ found

theorem numbered_awaits (numbered : Numbered c) : Numbered (c.awaits stage) := by
  intro id' stage' found
  rw [Manager.awaits, FinMap.lookup_insert_apply] at found
  split at found
  · next same =>
    subst same
    exact Nat.lt_succ_self _
  · exact Nat.lt_succ_of_lt (numbered _ _ found)

/-- The number of a new method is not in use. -/
theorem Numbered.fresh (numbered : Numbered c) : c.tasks.lookup c.calls = none := by
  cases found : c.tasks.lookup c.calls with
  | none => rfl
  | some stage => exact absurd (numbered _ _ found) (Nat.lt_irrefl _)

theorem sameCall_proceeds (waits : c.tasks.lookup id = some before) :
    SameCall c (c.proceeds id stage) :=
  ⟨rfl, rfl, rfl, rfl, rfl, Nat.le_refl _, numbered_proceeds waits⟩

theorem sameCall_ends : SameCall c (c.ends id) :=
  ⟨rfl, rfl, rfl, rfl, rfl, Nat.le_refl _, numbered_ends⟩

theorem perm_proceeds (waits : c.tasks.lookup id = some before) (was : plain before)
    (is : plain stage) : (queued (c.proceeds id stage)).Perm (queued c) := by
  have split := queued_of_waits waits
  rw [(plain_iff.mp was).2] at split
  rw [queued_proceeds, (plain_iff.mp is).2]
  exact split.symm

theorem perm_ends (waits : c.tasks.lookup id = some before) (was : plain before) :
    (queued (c.ends id)).Perm (queued c) := by
  have split := queued_of_waits waits
  rw [(plain_iff.mp was).2] at split
  exact split.symm

theorem quiet_proceeds (waits : c.tasks.lookup id = some before) (was : plain before)
    (is : plain stage) : Quiet c [] (c.proceeds id stage) :=
  ⟨sameCall_proceeds waits, ⟨rfl, rfl, rfl⟩, carries_of_queued rfl rfl (perm_proceeds waits was is)
    (drainsNext_proceeds waits (plain_iff.mp was).1)⟩

theorem quiet_ends (waits : c.tasks.lookup id = some before) (was : plain before) :
    Quiet c [] (c.ends id) :=
  ⟨sameCall_ends, ⟨rfl, rfl, rfl⟩,
    carries_of_queued rfl rfl (perm_ends waits was) (drainsNext_ends waits (plain_iff.mp was).1)⟩

theorem quiet_awaits (numbered : Numbered c) (is : plain stage) : Quiet c [] (c.awaits stage) := by
  refine ⟨⟨rfl, rfl, rfl, rfl, rfl, Nat.le_refl _, numbered_awaits⟩, ⟨rfl, rfl, rfl⟩,
    carries_of_queued rfl rfl ?_ ?_⟩
  · rw [queued, Manager.awaits, FinMap.values_insert, List.flatMap_cons, (plain_iff.mp is).2,
      FinMap.values_erase_of_none numbered.fresh]
    exact .refl _
  · rintro ⟨id', answering, n, found, current⟩
    refine ⟨id', answering, n, ?_, current⟩
    rw [Manager.awaits, FinMap.lookup_insert_apply, if_neg]
    · exact found
    · rintro rfl
      rw [numbered.fresh] at found
      cases found

theorem quiet_invokes (waits : c.tasks.lookup id = some before) (was : plain before)
    (is : plain stage) : Quiet c [] (c.invokes id stage) := by
  unfold Manager.invokes
  split
  · exact quiet_proceeds waits was is
  · exact quiet_ends waits was

/-! ### What is told to the peer -/

theorem quiet_signal (signal : CallSignal) : Quiet c [] (c.signal signal) := by
  unfold Manager.signal
  split
  · split <;> exact quiet_of_eq rfl
  · exact quiet_of_eq rfl

theorem tasks_signal (signal : CallSignal) : (c.signal signal).tasks = c.tasks := by
  unfold Manager.signal
  split
  · split <;> rfl
  · rfl

/-! ### Candidates that are passed on -/

/-- The connection held is there. -/
theorem held (referring : Referring c) {n : Nat} (current : c.pc.current = some n) :
    ∃ p, c.pc.made[n]? = some p := by
  obtain ⟨p, made, -⟩ := referring.connection n current
  exact ⟨p, made⟩

theorem candidatesOf_adds {n m : Nat} {p : PeerConnection} (made : c.pc.made[n]? = some p)
    (candidate : Candidate) : candidatesOf (c.adds n candidate) m =
      if n = m then candidatesOf c m ++ [candidate] else candidatesOf c m := by
  change ((c.pc.updateAt n _).made[m]?).elim [] _ = _
  rw [Slot.made_updateAt]
  split
  · next same =>
    subst same
    rw [candidatesOf, made]
    rfl
  · next other =>
    rw [candidatesOf]
    cases c.pc.made[m]? <;> rfl

/-- The connections that are not held are told nothing. -/
theorem candidatesOf_adds_other {n m : Nat} {p : PeerConnection} (current : c.pc.current = some n)
    (made : c.pc.made[n]? = some p) (other : c.pc.current ≠ some m) (candidate : Candidate) :
    candidatesOf (c.adds n candidate) m = candidatesOf c m := by
  refine (candidatesOf_adds made candidate).trans (if_neg ?_)
  rintro rfl
  exact other current

theorem described_adds {n : Nat} (candidate : Candidate) :
    described (c.adds n candidate) = described c := by
  cases current : c.pc.current with
  | none => simp [described, Slot.value, Manager.adds, current]
  | some m =>
    simp only [described, Slot.value, Manager.adds, Slot.current_updateAt, current,
      Option.bind_some, Slot.made_updateAt]
    cases c.pc.made[m]? with
    | none => rfl
    | some p =>
      simp only [Option.map_some, Option.any_some]
      split <;> rfl

theorem passed_adds {n : Nat} {p : PeerConnection} (current : c.pc.current = some n)
    (made : c.pc.made[n]? = some p) (candidate : Candidate) :
    passed (c.adds n candidate) = passed c ++ [candidate] := by
  have same : (c.adds n candidate).pc.current = some n := current
  rw [passed, passed, same, current]
  exact (candidatesOf_adds made candidate).trans (if_pos rfl)

/-- The rest of the methods that wait. -/
def others (c : Manager) (id : Nat) : List Candidate :=
  (FinMap.values (c.tasks.erase id)).flatMap queue

/-- What a queue held is passed on or still queued. -/
theorem passed_drainNext (referring : Referring c) (held_ : c.pc.current.isSome) (id : Nat)
    (answering : Answering) (candidates : List Candidate) :
    passed (c.drainNext id answering candidates) ++ queued (c.drainNext id answering candidates) =
      passed c ++ (candidates ++ others c id) := by
  obtain ⟨n, current⟩ := Option.isSome_iff_exists.mp held_
  obtain ⟨p, made⟩ := held referring current
  cases candidates with
  | nil => exact congrArg (passed c ++ ·) (queued_proceeds _)
  | cons candidate rest =>
    rw [Manager.drainNext, current]
    dsimp only
    rw [queued_proceeds, show passed ((c.adds n candidate).proceeds id (.draining answering rest)) =
      passed (c.adds n candidate) from rfl, passed_adds current made, List.append_assoc]
    rfl

theorem passed_of_none (none : c.pc.current = none) : passed c = [] := by rw [passed, none]; rfl

theorem sameCall_adds (n : Nat) (candidate : Candidate) : SameCall c (c.adds n candidate) :=
  ⟨rfl, rfl, rfl, rfl, rfl, Nat.le_refl _, fun numbered => numbered⟩

theorem sameCall_drainNext (waits : c.tasks.lookup id = some before) (answering : Answering)
    (candidates : List Candidate) : SameCall c (c.drainNext id answering candidates) := by
  cases candidates with
  | nil => exact sameCall_proceeds waits
  | cons candidate rest =>
    rw [Manager.drainNext]
    split
    · next n _ => exact (sameCall_adds n candidate).trans (sameCall_proceeds waits)
    · exact sameCall_proceeds waits

theorem shows_drainNext (answering : Answering) (candidates : List Candidate) :
    Shows c (c.drainNext id answering candidates) := by
  cases candidates with
  | nil => exact ⟨rfl, rfl, rfl⟩
  | cons candidate rest =>
    rw [Manager.drainNext]
    split <;> exact ⟨rfl, rfl, rfl⟩

/-- The connection held stays, and no other one is told anything. -/
theorem pc_drainNext (referring : Referring c) (id : Nat) (answering : Answering)
    (candidates : List Candidate) :
    (c.drainNext id answering candidates).pc.current = c.pc.current ∧
      (c.drainNext id answering candidates).pc.made.length = c.pc.made.length ∧
      (c.drainNext id answering candidates).pendingIce = c.pendingIce ∧
      described (c.drainNext id answering candidates) = described c ∧
      ∀ n, c.pc.current ≠ some n →
        candidatesOf (c.drainNext id answering candidates) n = candidatesOf c n := by
  cases candidates with
  | nil => exact ⟨rfl, rfl, rfl, rfl, fun _ _ => rfl⟩
  | cons candidate rest =>
    rw [Manager.drainNext]
    split
    · next m current =>
      obtain ⟨p, made⟩ := held referring current
      exact ⟨rfl, List.length_modify .., rfl, described_adds candidate,
        fun n other => candidatesOf_adds_other current made other candidate⟩
    · exact ⟨rfl, rfl, rfl, rfl, fun _ _ => rfl⟩

theorem drainsNext_drainNext (waits : c.tasks.lookup id = some before)
    (was : applied before = false) (answering : Answering) (candidates : List Candidate)
    (drains : DrainsNext c) : DrainsNext (c.drainNext id answering candidates) := by
  cases candidates with
  | nil => exact drainsNext_proceeds waits was drains
  | cons candidate rest =>
    rw [Manager.drainNext]
    split
    · next n _ =>
      have drains : DrainsNext (c.adds n candidate) := drains
      exact drainsNext_proceeds waits was drains
    · exact drainsNext_proceeds waits was drains

theorem drainNext_of_none (none : c.pc.current = none) (answering : Answering)
    (candidates : List Candidate) :
    c.drainNext id answering candidates = c.proceeds id (.drained answering) := by
  cases candidates with
  | nil => rfl
  | cons candidate rest => rw [Manager.drainNext, none]

/-- The next candidate is passed on. -/
theorem quiet_drainNext (referring : Referring c) {answering : Answering}
    {candidates : List Candidate}
    (waits : c.tasks.lookup id = some (.draining answering candidates)) :
    Quiet c [] (c.drainNext id answering candidates) := by
  obtain ⟨current, made, pendingIce, described_, others_⟩ :=
    pc_drainNext referring id answering candidates
  have split := queued_of_waits waits
  have emptied (none : c.pc.current = none) (empty : queued c = []) :
      queued (c.drainNext id answering candidates) = [] := by
    rw [empty] at split
    rw [drainNext_of_none none, queued_proceeds]
    exact (List.append_eq_nil_iff.mp (List.nil_perm.mp split)).2
  refine ⟨sameCall_drainNext waits .., shows_drainNext .., current, made, others_, emptied,
    fun empty => ?_, fun settling => ?_⟩
  · rw [left, left, pendingIce]
    cases held_ : c.pc.current with
    | none =>
      rw [passed_of_none held_, passed_of_none (current.trans held_), empty held_,
        emptied held_ (empty held_)]
      exact .refl _
    | some n =>
      have kept := passed_drainNext referring (by simp [held_]) id answering candidates
      refine (List.perm_append_comm_assoc ..).trans ?_
      rw [kept, List.nil_append]
      refine List.Perm.trans ?_ (List.perm_append_comm_assoc ..)
      exact (split.symm.append_left _).append_left _
  · rw [Settling, described_, pendingIce]
    exact fun is waiting => drainsNext_drainNext waits rfl _ _ (settling is waiting)

/-- The buffer is emptied, into the connection held. -/
theorem quiet_drainIce (referring : Referring c) {answering : Answering}
    (waits : c.tasks.lookup id = some before) (was : queue before = []) :
    Quiet c [] (c.drainIce id answering) := by
  have split := queued_of_waits waits
  rw [was] at split
  unfold Manager.drainIce
  split
  · next held_ =>
    let emptied : Manager := { c with pendingIce := [] }
    have referring : Referring emptied := ⟨referring.connection, referring.stream, referring.peer⟩
    have waits : emptied.tasks.lookup id = some before := waits
    obtain ⟨current, made, pendingIce, -, others_⟩ :=
      pc_drainNext referring id answering c.pendingIce
    have kept := passed_drainNext referring held_ id answering c.pendingIce
    have same : SameCall c emptied :=
      ⟨rfl, rfl, rfl, rfl, rfl, Nat.le_refl _, fun numbered => numbered⟩
    have shown : Shows c emptied := ⟨rfl, rfl, rfl⟩
    have some_ : c.pc.current ≠ none := Option.isSome_iff_ne_none.mp held_
    refine ⟨same.trans (sameCall_drainNext waits ..),
      shown.trans (shows_drainNext ..), current, made, others_,
      fun none => absurd none some_, fun _ => ?_, fun _ _ waiting => absurd pendingIce waiting⟩
    rw [left, pendingIce]
    refine (List.Perm.of_eq kept).trans ?_
    exact (split.symm.append_left _).append_left _
  · next unheld =>
    have none := Option.not_isSome_iff_eq_none.mp unheld
    refine ⟨sameCall_proceeds waits, ⟨rfl, rfl, rfl⟩, rfl, rfl, fun _ _ => rfl,
      fun _ empty => ?_, fun _ => ?_, fun _ is => ?_⟩
    · rw [queued_proceeds]
      rw [empty] at split
      exact List.nil_perm.mp split
    · rw [left, queued_proceeds]
      exact (split.symm.append_left _).append_left _
    · have undescribed : described (c.proceeds id (.drained answering)) = false := by
        simp [described, Slot.value, Manager.proceeds, none]
      rw [undescribed] at is
      cases is

/-- Another connection than the one held gets its remote description. -/
theorem described_elsewhere {n : Nat} (elsewhere : c.pc.current ≠ some n)
    (is : described { c with
      pc := c.pc.updateAt n fun p => { p with remoteDescription := true } }) : described c := by
  cases current : c.pc.current with
  | none => simp [described, Slot.value, current] at is
  | some m =>
    have differs : n ≠ m := by
      rintro rfl
      exact elsewhere current
    simp only [described, Slot.value, Slot.current_updateAt, current, Option.bind_some,
      Slot.made_updateAt, if_neg differs] at is
    simpa only [described, Slot.value, current, Option.bind_some, Option.map_id'] using is

/-- The remote description of a connection is in effect, and its method goes on with
`drainIce`. -/
theorem quiet_described {answering : Answering} {n : Nat}
    (waits : c.tasks.lookup id = some (.applying answering n false)) :
    Quiet c [] (({ c with
      pc := c.pc.updateAt n fun p => { p with remoteDescription := true } }).proceeds id
        (.applying answering n true)) := by
  have same (m : Nat) : ((c.pc.made[m]?).map fun p =>
      if n = m then { p with remoteDescription := true } else p).elim [] PeerConnection.candidates =
        candidatesOf c m := by
    rw [candidatesOf]
    cases c.pc.made[m]? with
    | none => rfl
    | some p =>
      simp only [Option.map_some, Option.elim_some]
      split <;> rfl
  have candidates (m : Nat) : candidatesOf (({ c with
      pc := c.pc.updateAt n fun p => { p with remoteDescription := true } }).proceeds id
        (.applying answering n true)) m = candidatesOf c m :=
    (congrArg (Option.elim · [] PeerConnection.candidates) (Slot.made_updateAt m)).trans (same m)
  have split := queued_of_waits waits
  refine ⟨⟨rfl, rfl, rfl, rfl, rfl, Nat.le_refl _, numbered_proceeds waits⟩, ⟨rfl, rfl, rfl⟩, rfl,
    List.length_modify .., fun m _ => candidates m, fun _ empty => ?_, fun _ => ?_,
    fun settling is waiting => ?_⟩
  · rw [queued_proceeds]
    rw [empty] at split
    exact List.nil_perm.mp split
  · rw [passed, funext candidates, left, queued_proceeds]
    exact (split.symm.append_left _).append_left _
  · by_cases here : c.pc.current = some n
    · refine ⟨id, answering, n, ?_, here⟩
      rw [Manager.proceeds, FinMap.lookup_insert_apply, if_pos rfl]
    · exact drainsNext_proceeds waits rfl (settling (described_elsewhere here is) waiting)

/-- A candidate goes to the connection held. -/
theorem quiet_adds {n : Nat} {p : PeerConnection} (current : c.pc.current = some n)
    (made : c.pc.made[n]? = some p) (candidate : Candidate) :
    Quiet c [candidate] (c.adds n candidate) := by
  refine ⟨sameCall_adds .., ⟨rfl, rfl, rfl⟩, rfl, List.length_modify .., fun m other => ?_,
    fun none => ?_, fun _ => ?_, fun settling => ?_⟩
  · exact candidatesOf_adds_other current made other candidate
  · rw [current] at none
    cases none
  · rw [passed_adds current made, List.append_assoc]
    exact List.perm_append_comm_assoc (passed c) [candidate] (left c)
  · rw [Settling, described_adds]
    exact settling

/-- A candidate waits for the remote description. -/
theorem quiet_buffers (undescribed : described c = false) (candidate : Candidate) :
    Quiet c [candidate] { c with pendingIce := c.pendingIce ++ [candidate] } := by
  refine ⟨⟨rfl, rfl, rfl, rfl, rfl, Nat.le_refl _, fun numbered => numbered⟩, ⟨rfl, rfl, rfl⟩, rfl,
    rfl, fun _ _ => rfl, fun _ empty => empty, fun _ => ?_, fun _ is => ?_⟩
  · rw [left, left, List.append_assoc]
    refine List.Perm.trans ?_ (List.perm_append_comm_assoc (passed c) [candidate] _)
    exact (List.perm_append_comm_assoc ..).append_left _
  · change described c = true at is
    rw [undescribed] at is
    cases is

theorem trickled_of_ice (fromPeerId : Text) (signal : Value) (built : Bool) (now : Nat)
    (type : Manager.typeOf signal = some .ice) :
    trickled c (.signal fromPeerId signal built now) =
      if identical (signal.get "callId") c.callId && (signal.get "candidate").truthy && built then
        [⟨c.signals, signal.get "candidate"⟩]
      else [] := by
  simp only [trickled, arrived, type, decide_true, Bool.true_and]
  cases same : identical (signal.get "callId") c.callId with
  | true => split <;> simp_all [meant]
  | false => split <;> simp_all [meant]

/-- A candidate that comes in for the call. -/
theorem quiet_trickles (referring : Referring c) (fromPeerId : Text) (signal : Value)
    (built : Bool) (now : Nat) (type : Manager.typeOf signal = some .ice) :
    Quiet c (trickled c (.signal fromPeerId signal built now)) (c.trickles signal built) := by
  rw [trickled_of_ice _ _ _ _ type]
  unfold Manager.trickles
  dsimp only
  split
  · split
    · next n current =>
      obtain ⟨p, made⟩ := held referring current
      split
      · exact quiet_adds current made _
      · next undescribed => exact quiet_buffers (by simpa [described] using undescribed) _
    · next current => exact quiet_buffers (by simp [described, Slot.value, current]) _
  · exact quiet_of_eq rfl

/-! ### What each action does -/

/-- A call is placed or taken. -/
structure Begins (c : Manager) (a : Action) (c' : Manager) : Prop where
  callId : c'.callId = begun a
  peerId : c'.peerId.isSome
  log : c'.log = c.log
  signals : c.signals ≤ c'.signals
  numbered : Numbered c → Numbered c'
  shown : c'.state.callId = c'.callId
  timers : c'.timers = c.timers
  pendingIce : c'.pendingIce = c.pendingIce
  queued : (queued c').Perm (queued c)

/-- The call is over. -/
structure Finishes (c : Manager) (a : Action) (c' : Manager) : Prop where
  callId : c'.callId = .null
  peerId : c'.peerId = none
  pendingOffer : c'.pendingOffer = .null
  log : c'.log = addLog c.log (entry c (outcome c a) (instant a))
  signals : c.signals ≤ c'.signals
  numbered : Numbered c → Numbered c'
  status : c'.state.status = .ended
  timers : c'.timers = c.timers + 1
  current : c'.pc.current = none
  made : c'.pc.made.length = c.pc.made.length
  candidates : ∀ n, candidatesOf c' n = candidatesOf c n
  pendingIce : c'.pendingIce = []
  queued : (queued c').Perm (queued c)

inductive Effect (c : Manager) (a : Action) (c' : Manager) : Prop where
  | quiet (is : kind c a = .quiet) (same : Quiet c (trickled c a) c')
  | activates (is : kind c a = .activates) (call : SameCall c c') (carries : Carries c [] c')
      (status : c'.state.status = .active) (shown : c'.state.callId = c.state.callId)
      (timers : c'.timers = c.timers)
  | connects (is : kind c a = .connects) (call : SameCall c c') (shows_ : Shows c c')
      (pc : c'.pc = c.pc.fill {}) (pendingIce : c'.pendingIce = c.pendingIce)
      (queued : (queued c').Perm (queued c))
  | dials (is : kind c a = .dials) (begins : Begins c a c') (status : c'.state.status = .outgoing)
      (direction : c'.direction = .outgoing) (pendingOffer : c'.pendingOffer = c.pendingOffer)
      (pc : c'.pc = if constructed a then c.pc.fill {} else c.pc)
  | rings (is : kind c a = .rings) (begins : Begins c a c') (status : c'.state.status = .incoming)
      (direction : c'.direction = .incoming) (pc : c'.pc = c.pc) (free : c.busy = false)
  | finishes (is : kind c a = .finishes) (gone : Finishes c a c')
  | denies (is : kind c a = .denies) (call : SameCall c c') (carries : Carries c [] c')
      (status : c'.state.status = .ended) (shown : c'.state.callId = c.state.callId)
      (timers : c'.timers = c.timers + 1)
  | resets (is : kind c a = .resets) (call : SameCall c c') (carries : Carries c [] c')
      (state : c'.state = IDLE) (timers : c.timers = c'.timers + 1)

theorem truthy_newCallId (now : Nat) (random : Text) : (newCallId now random).truthy := by
  simp [newCallId, Value.truthy, utf16]

/-- A call that is placed has an id. -/
theorem truthy_of_dials (is : kind c a = .dials) : (begun a).truthy := by
  cases a with
  | permitted id granted built now random => exact truthy_newCallId now random
  | signal fromPeerId signal built now =>
    simp only [kind] at is
    split at is <;> (try split at is) <;> cases is
  | resolved =>
    simp only [kind] at is
    split at is <;> cases is
  | connectionstatechange =>
    simp only [kind] at is
    split at is <;> cases is
  | _ => cases is

theorem log_logs (outcome : Outcome) (now : Nat) :
    (c.logs outcome now).log = addLog c.log (entry c outcome now) := by
  unfold Manager.logs entry
  cases c.peerId with
  | none => rfl
  | some peerId =>
    dsimp only
    split <;> rfl

theorem logs_eq (outcome : Outcome) (now : Nat) :
    c.logs outcome now = { c with log := addLog c.log (entry c outcome now) } := by
  rw [← log_logs]
  unfold Manager.logs
  split
  · split <;> rfl
  · rfl

theorem made_close (s : Slot PeerConnection) :
    (s.update PeerConnection.close).clear.made.length = s.made.length := by
  cases current : s.current with
  | none => simp [Slot.clear, Slot.update, current]
  | some m => simp [Slot.clear, Slot.update, current, Slot.updateAt]

/-- Closing a connection takes no candidate from it. -/
theorem candidates_close (s : Slot PeerConnection) (n : Nat) :
    ((s.update PeerConnection.close).clear.made[n]?).elim [] PeerConnection.candidates =
      (s.made[n]?).elim [] PeerConnection.candidates := by
  cases current : s.current with
  | none => simp [Slot.clear, Slot.update, current]
  | some m =>
    have made := Slot.made_updateAt (s := s) (n := m) (f := PeerConnection.close) n
    simp only [Slot.clear, Slot.update, current, made]
    cases s.made[n]? with
    | none => rfl
    | some p =>
      simp only [Option.map_some, Option.elim_some]
      split <;> rfl

/-- What `finish` does where methods may have ended, and the peer may have been told. -/
theorem finishes_finish {outcome_ : Outcome} {now : Nat} {sent : List (Text × CallSignal)}
    {tasks : FinMap Nat Stage} (is : outcome c a = outcome_) (at_ : instant a = now)
    (reason : String) (same : c' = { c with sent, tasks })
    (numbered : Numbered c → Numbered c') (queued_of : (queued c').Perm (queued c)) :
    Finishes c a (c'.finish outcome_ reason now) := by
  subst is at_ same
  rw [Manager.finish, logs_eq]
  exact ⟨rfl, rfl, rfl, rfl, Nat.le_refl _, fun known => numbered known, rfl, rfl, rfl,
    made_close c.pc, fun n => candidates_close c.pc n, rfl, queued_of⟩

theorem leaves_eq (type : SignalType) :
    c.leaves type = { c with sent := (c.leaves type).sent } := by
  unfold Manager.leaves Manager.signal
  split
  · split
    · split <;> rfl
    · rfl
  · rfl

theorem effect_permitted {granted built : Bool} {now : Nat} {random : Text}
    (waits : c.tasks.lookup id = some stage)
    (moved : c.permitted id granted built now random stage = some c') :
    Effect c (.permitted id granted built now random) c' := by
  cases stage with
  | starting peerId peerName video =>
    cases moved
    have plain_ : plain (.starting peerId peerName video) := rfl
    cases granted with
    | false =>
      obtain ⟨call, -, carries⟩ := quiet_ends waits plain_
      refine .denies (by rw [kind, waits]; rfl) ?_ ?_ rfl rfl rfl
      · exact ⟨rfl, rfl, rfl, rfl, rfl, Nat.le_refl _, call.numbered⟩
      · exact ⟨rfl, rfl, carries.others, carries.idle, carries.perm, carries.settling⟩
    | true =>
      have is : kind c (.permitted id true built now random) = .dials := by rw [kind, waits]; rfl
      cases built with
      | false =>
        exact .dials is ⟨rfl, rfl, rfl, Nat.le_refl _, fun known => numbered_ends known, rfl, rfl,
          rfl, perm_ends waits plain_⟩ rfl rfl rfl rfl
      | true =>
        exact .dials is ⟨rfl, rfl, rfl, Nat.le_refl _, fun known => numbered_proceeds waits known,
          rfl, rfl, rfl, perm_proceeds waits plain_ rfl⟩ rfl rfl rfl rfl
  | accepting =>
    cases moved
    cases granted with
    | false =>
      have told := leaves_eq (c := c.ends id) .decline
      refine .finishes (by rw [kind, waits]; rfl) (finishes_finish rfl rfl "Declined" told ?_ ?_)
      · rw [told]
        exact fun known => numbered_ends known
      · rw [told]
        exact perm_ends waits rfl
    | true =>
      cases built with
      | false =>
        exact .quiet (by rw [kind, waits]; rfl) (quiet_ends waits rfl)
      | true =>
        exact .connects (by rw [kind, waits]; rfl) ⟨rfl, rfl, rfl, rfl, rfl, Nat.le_refl _,
          fun known => numbered_proceeds waits known⟩ ⟨rfl, rfl, rfl⟩ rfl rfl
          (perm_proceeds waits rfl rfl)
  | _ => cases moved

theorem effect_acquired {url : Option Text} {added : Bool} (waits : c.tasks.lookup id = some stage)
    (moved : c.acquired id url added stage = some c') :
    Effect c (.acquired id url added) c' := by
  refine .quiet rfl ?_
  cases stage with
  | acquiring placing video =>
    cases url with
    | none =>
      cases moved
      exact quiet_ends waits rfl
    | some url =>
      cases moved
      dsimp only
      let filled : Manager := { c with local_ := c.local_.fill (userMedia video url) }
      have fills : Quiet c [] filled := quiet_of_eq rfl
      split
      · let shown : Manager := { filled with state := { c.state with localUrl := some url } }
        have showing : Quiet filled [] shown := quiet_of_eq rfl
        have waits : shown.tasks.lookup id = some (.acquiring placing video) := waits
        exact (fills.trans showing).trans (quiet_proceeds waits rfl rfl)
      · have waits : filled.tasks.lookup id = some (.acquiring placing video) := waits
        exact fills.trans (quiet_ends waits rfl)
  | _ => cases moved

theorem effect_described (waits : c.tasks.lookup id = some stage)
    (moved : c.described id stage = some c') : Effect c (.described id) c' := by
  refine .quiet rfl ?_
  cases stage with
  | applying answering n applied =>
    cases applied with
    | false =>
      cases moved
      exact quiet_described waits
    | true => cases moved
  | _ => cases moved

theorem effect_resolved {sdp : Value} {built : Bool} {now : Nat} (referring : Referring c)
    (waits : c.tasks.lookup id = some stage)
    (moved : c.resolved id sdp built now stage = some c') :
    Effect c (.resolved id sdp built now) c' := by
  have signalled (signal : CallSignal) : (c.signal signal).tasks.lookup id = some stage := by
    rw [tasks_signal, waits]
  cases stage with
  | attached placing =>
    refine .quiet (by rw [kind, waits]) ?_
    cases placing with
    | start video =>
      cases moved
      exact quiet_invokes waits rfl rfl
    | accept =>
      cases moved
      split
      · split
        · exact quiet_proceeds waits rfl rfl
        · exact quiet_ends waits rfl
      · exact quiet_ends waits rfl
  | offering | answering =>
    refine .quiet (by rw [kind, waits]) ?_
    cases moved
    exact quiet_invokes waits rfl rfl
  | describingOffer =>
    refine .quiet (by rw [kind, waits]) ?_
    cases moved
    exact (quiet_signal _).trans (quiet_ends (signalled _) rfl)
  | applying answering n applied =>
    refine .quiet (by rw [kind, waits]) ?_
    cases applied with
    | false => cases moved
    | true =>
      cases moved
      exact quiet_drainIce referring waits rfl
  | draining =>
    refine .quiet (by rw [kind, waits]) ?_
    cases moved
    exact quiet_drainNext referring waits
  | drained answering =>
    cases answering with
    | accept =>
      refine .quiet (by rw [kind, waits]) ?_
      cases moved
      exact quiet_invokes waits rfl rfl
    | onSignal =>
      cases moved
      obtain ⟨call, -, carries⟩ := quiet_ends waits rfl
      exact .activates (by rw [kind, waits])
        ⟨rfl, rfl, rfl, rfl, rfl, Nat.le_refl _, call.numbered⟩
        ⟨rfl, rfl, carries.others, carries.idle, carries.perm, carries.settling⟩ rfl rfl rfl
  | describingAnswer answer =>
    cases moved
    obtain ⟨call, shown, carries⟩ := (quiet_signal (c := c) _).trans (quiet_ends (signalled _) rfl)
    exact .activates (by rw [kind, waits])
      ⟨call.callId, call.peerId, call.direction, call.pendingOffer, call.log, call.signals,
        call.numbered⟩
      ⟨carries.current, carries.made, carries.others, carries.idle, carries.perm,
        carries.settling⟩ rfl
      shown.callId shown.timers
  | _ => cases moved

theorem effect_rejected (referring : Referring c) (waits : c.tasks.lookup id = some stage)
    (moved : c.rejected id stage = some c') : Effect c (.rejected id) c' := by
  refine .quiet rfl ?_
  cases stage with
  | applying answering n applied =>
    cases applied with
    | false =>
      cases moved
      exact quiet_ends waits rfl
    | true => cases moved
  | draining =>
    cases moved
    exact quiet_drainNext referring waits
  | offering | describingOffer | answering | describingAnswer =>
    cases moved
    exact quiet_ends waits rfl
  | _ => cases moved

/-- Signals are counted after what they do. -/
theorem Quiet.counted (same : Quiet c new c') : Quiet c new { c' with signals := c.signals + 1 } :=
  ⟨⟨same.call.callId, same.call.peerId, same.call.direction, same.call.pendingOffer, same.call.log,
      Nat.le_succ _, same.call.numbered⟩,
    ⟨same.shows_.status, same.shows_.callId, same.shows_.timers⟩,
    ⟨same.carries.current, same.carries.made, same.carries.others, same.carries.idle,
      same.carries.perm, same.carries.settling⟩⟩

theorem Finishes.counted (gone : Finishes c a c') :
    Finishes c a { c' with signals := c.signals + 1 } :=
  ⟨gone.callId, gone.peerId, gone.pendingOffer, gone.log, Nat.le_succ _, gone.numbered, gone.status,
    gone.timers, gone.current, gone.made, gone.candidates, gone.pendingIce, gone.queued⟩

/-- Only an `ice` brings a candidate. -/
theorem arrived_of_type {fromPeerId : Text} {signal : Value} {built : Bool} {now : Nat}
    (type : Manager.typeOf signal ≠ some .ice) :
    arrived c (.signal fromPeerId signal built now) = [] := by
  simp [arrived, type]

theorem trickled_of_type {fromPeerId : Text} {signal : Value} {built : Bool} {now : Nat}
    (type : Manager.typeOf signal ≠ some .ice) :
    trickled c (.signal fromPeerId signal built now) = [] := by
  rw [trickled, arrived_of_type type]
  rfl

theorem effect_accepted {fromPeerId : Text} {signal : Value} {built : Bool} {now : Nat}
    (numbered : Numbered c) (type : Manager.typeOf signal = some .accept) :
    Effect c (.signal fromPeerId signal built now)
      { c.accepted signal built now with signals := c.signals + 1 } := by
  have brings : trickled c (.signal fromPeerId signal built now) = [] :=
    trickled_of_type (by simp [type])
  have stays (is : kind c (.signal fromPeerId signal built now) = .quiet) {next : Manager}
      (same : Quiet c [] next) :
      Effect c (.signal fromPeerId signal built now) { next with signals := c.signals + 1 } :=
    .quiet is (brings.symm ▸ same.counted)
  unfold Manager.accepted
  split
  · next n current =>
    split
    · next same =>
      split
      · next describes =>
        have is : kind c (.signal fromPeerId signal built now) = .quiet := by
          simp [kind, type, describes]
        split
        · exact stays is (quiet_awaits numbered rfl)
        · exact stays is (quiet_of_eq rfl)
      · next describes =>
        refine .activates (by simp [kind, type, describes, same, current])
          ⟨rfl, rfl, rfl, rfl, rfl, Nat.le_succ _, fun known => known⟩ (carries_of_eq rfl rfl rfl)
          rfl rfl rfl
    · next differs => exact stays (by simp [kind, type, differs]) (quiet_of_eq rfl)
  · next none => exact stays (by simp [kind, type, none]) (quiet_of_eq rfl)

theorem effect_rings {fromPeerId : Text} {signal : Value} {built : Bool} {now : Nat}
    (type : Manager.typeOf signal = some .ring) :
    Effect c (.signal fromPeerId signal built now)
      { c.rings fromPeerId signal with signals := c.signals + 1 } := by
  unfold Manager.rings
  dsimp only
  split
  · next busy =>
    have brings : trickled c (.signal fromPeerId signal built now) = [] :=
      trickled_of_type (by simp [type])
    let busySignal : CallSignal := { type := .decline, callId := signal.get "callId" }
    have told : Quiet c [] (c.sendTo fromPeerId busySignal) := quiet_of_eq rfl
    exact .quiet (by simp [kind, type, busy]) (brings.symm ▸ told.counted)
  · next free =>
    simp only [Bool.not_eq_true] at free
    exact .rings (by simp [kind, type, free]) ⟨rfl, rfl, rfl, Nat.le_succ _, fun known => known,
      rfl, rfl, rfl, .refl _⟩ rfl rfl rfl free

theorem effect_onSignal (fromPeerId : Text) (signal : Value) (built : Bool) (now : Nat)
    (referring : Referring c) (numbered : Numbered c) :
    Effect c (.signal fromPeerId signal built now) (c.onSignal fromPeerId signal built now) := by
  unfold Manager.onSignal
  dsimp only
  cases type : Manager.typeOf signal with
  | none =>
    refine .quiet (by simp [kind, type]) ?_
    rw [trickled_of_type (by simp [type])]
    exact Quiet.counted (quiet_of_eq rfl)
  | some t =>
    cases t with
    | ring => exact effect_rings type
    | accept => exact effect_accepted numbered type
    | ice =>
      exact .quiet (by simp [kind, type])
        (quiet_trickles referring fromPeerId signal built now type).counted
    | decline | hangup =>
      dsimp only
      split
      · next same =>
        exact .finishes (by simp [kind, type, same]) (Finishes.counted
          (finishes_finish (by simp [outcome, type]) rfl _ rfl (fun known => known) (.refl _)))
      · next differs =>
        refine .quiet (by simp [kind, type, differs]) ?_
        rw [trickled_of_type (by simp [type])]
        exact Quiet.counted (quiet_of_eq rfl)

theorem effect_of_step (referring : Referring c) (numbered : Numbered c)
    (moved : c.step a = some c') : Effect c a c' := by
  cases a with
  | start =>
    cases moved
    refine .quiet rfl ?_
    unfold Manager.start
    split
    · exact quiet_of_eq rfl
    · exact quiet_awaits numbered rfl
  | accept =>
    cases moved
    refine .quiet rfl ?_
    unfold Manager.accept
    split
    · exact quiet_awaits numbered rfl
    · exact quiet_of_eq rfl
  | decline | hangup =>
    cases moved
    refine .finishes rfl (finishes_finish rfl rfl _ (leaves_eq _) ?_ ?_)
    · rw [leaves_eq]
      exact fun known => known
    · rw [leaves_eq]
      exact .refl _
  | toggleMute =>
    cases moved
    refine .quiet rfl ?_
    unfold Manager.toggleMute
    split <;> exact quiet_of_eq rfl
  | toggleCamera =>
    cases moved
    refine .quiet rfl ?_
    unfold Manager.toggleCamera
    split <;> exact quiet_of_eq rfl
  | signal =>
    cases moved
    exact effect_onSignal _ _ _ _ referring numbered
  | permitted =>
    obtain ⟨stage, waits, moved⟩ := Option.bind_eq_some_iff.mp moved
    exact effect_permitted waits moved
  | acquired =>
    obtain ⟨stage, waits, moved⟩ := Option.bind_eq_some_iff.mp moved
    exact effect_acquired waits moved
  | described =>
    obtain ⟨stage, waits, moved⟩ := Option.bind_eq_some_iff.mp moved
    exact effect_described waits moved
  | resolved =>
    obtain ⟨stage, waits, moved⟩ := Option.bind_eq_some_iff.mp moved
    exact effect_resolved referring waits moved
  | rejected =>
    obtain ⟨stage, waits, moved⟩ := Option.bind_eq_some_iff.mp moved
    exact effect_rejected referring waits moved
  | icecandidate connection candidate =>
    obtain ⟨-, same⟩ := Option.ite_none_right_eq_some.mp moved
    cases same
    refine .quiet rfl ?_
    unfold Manager.icecandidate
    split
    · split
      · exact quiet_signal _
      · exact quiet_of_eq rfl
    · exact quiet_of_eq rfl
  | track connection url =>
    obtain ⟨-, same⟩ := Option.ite_none_right_eq_some.mp moved
    cases same
    refine .quiet rfl ?_
    unfold Manager.track
    split <;> exact quiet_of_eq rfl
  | connectionstatechange connection lost now =>
    obtain ⟨-, same⟩ := Option.ite_none_right_eq_some.mp moved
    cases same
    unfold Manager.connectionstatechange
    split
    · next is =>
      exact .finishes (if_pos is) (finishes_finish rfl rfl _ rfl (fun known => known) (.refl _))
    · next is => exact .quiet (if_neg is) (quiet_of_eq rfl)
  | timer =>
    obtain ⟨waiting, same⟩ := Option.ite_none_right_eq_some.mp moved
    cases same
    exact .resets rfl ⟨rfl, rfl, rfl, rfl, rfl, Nat.le_refl _, fun known => known⟩
      (carries_of_eq rfl rfl rfl) rfl (Nat.sub_add_cancel waiting).symm

/-! ## Every state -/

theorem started_numbered (started : callManager.start c) : Numbered c := by
  subst started
  intro id stage found
  cases found

theorem step_numbered (referring : Referring c) (numbered : Numbered c)
    (moved : c.step a = some c') : Numbered c' := by
  cases effect_of_step referring numbered moved with
  | quiet _ same => exact same.call.numbered numbered
  | activates _ call | connects _ call | denies _ call | resets _ call =>
    exact call.numbered numbered
  | dials _ begins | rings _ begins => exact begins.numbered numbered
  | finishes _ gone => exact gone.numbered numbered

theorem reached_numbered {ok : Manager → Action → Prop} (reached : callManager.Reached ok c) :
    Numbered c :=
  reached.invariant_under Numbered (fun _ => CallMedia.reached_referring)
    (fun _ => started_numbered) fun _ _ _ referring numbered _ moved =>
      step_numbered referring numbered moved

/-- What a step of a run does. -/
theorem effect_of_reached {ok : Manager → Action → Prop} (reached : callManager.Reached ok c)
    (moved : c.step a = some c') : Effect c a c' :=
  effect_of_step (CallMedia.reached_referring reached) (reached_numbered reached) moved

end Hwfa.CallEffects
