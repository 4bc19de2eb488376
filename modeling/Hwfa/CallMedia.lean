import Hwfa.CallManager

/-!
The connections and streams of calls (`apps/mobile/src/call/manager.ts`, `start`,
`accept`, `attachLocalMedia`, `finish`).

`start` and `accept` go on after each await without looking whether the call is still
there, or whether another one holds a connection or a stream by now.  A step is
`Undisturbed` where it would not have mattered: `step_noOrphans` says that these are
exactly the steps that orphan nothing.
-/

namespace Hwfa.CallMedia

open Hwfa.Machines Hwfa.Maps Hwfa.Slots Hwfa.Json Hwfa.CallManager
open Hwfa.StatusStore (identical)

def Closed (p : PeerConnection) : Prop := p.closed = true

def Stopped (s : MediaStream) : Prop := ∀ t ∈ s.tracks, t.stopped = true

/-- There is a call, with a peer. -/
def InCall (c : Manager) : Prop := c.callId.nullish = false ∧ c.peerId.isSome

instance (c : Manager) : Decidable (InCall c) :=
  inferInstanceAs (Decidable (c.callId.nullish = false ∧ c.peerId.isSome))

/-- What is held belongs to a call, and everything else has been given back. -/
structure NoOrphans (c : Manager) : Prop where
  connection : c.pc.current.isSome → InCall c
  stream : c.local_.current.isSome → InCall c
  closed : c.pc.Clean Closed
  stopped : c.local_.Clean Stopped

/-- A connection is made, and a stream comes, only where none is held and there is a call;
and while a stream is held no ring is taken that names no call. -/
def Undisturbed (c : Manager) : Action → Bool
  | .permitted id true true _ _ =>
    match c.tasks.lookup id with
    | some (.starting _ _ _) => c.pc.current.isNone
    | some .accepting => c.pc.current.isNone && InCall c
    | _ => true
  | .acquired _ (some _) _ => c.local_.current.isNone && InCall c
  | .signal _ signal _ _ =>
    Manager.typeOf signal ≠ some .ring || c.busy || c.local_.current.isNone ||
      !(signal.get "callId").nullish
  | _ => true

/-- What holds of every state: what is referred to is there and still in use, and a call
has a peer. -/
structure Referring (c : Manager) : Prop where
  connection : c.pc.Live Closed
  stream : c.local_.Live Stopped
  peer : c.peerId = none → c.callId = .null

variable {c c' : Manager} {a : Action} {id : Nat}

/-! ## What a step does to them -/

/-- Nothing is made, acquired or given back, and the call stays what it is. -/
structure Keeps (c c' : Manager) : Prop where
  pc : Slot.Same Closed c.pc c'.pc
  local_ : Slot.Same Stopped c.local_ c'.local_
  callId : c'.callId = c.callId
  peerId : c'.peerId = c.peerId

theorem Keeps.of_eq (pc : c'.pc = c.pc) (local_ : c'.local_ = c.local_)
    (callId : c'.callId = c.callId) (peerId : c'.peerId = c.peerId) : Keeps c c' :=
  ⟨pc ▸ .refl _, local_ ▸ .refl _, callId, peerId⟩

/-- Everything is given back. -/
structure Finishes (c c' : Manager) : Prop where
  pc : c'.pc = (c.pc.update PeerConnection.close).clear
  local_ : c'.local_ = (c.local_.update MediaStream.stop).clear
  callId : c'.callId = .null
  peerId : c'.peerId = none

inductive Moves (c : Manager) (a : Action) (c' : Manager) : Prop where
  | keeps (same : Keeps c c') (quiet : Undisturbed c a = true)
  | finishes (gone : Finishes c c') (quiet : Undisturbed c a = true)
  /-- a call is begun or taken, without a connection -/
  | rings (pc : c'.pc = c.pc) (local_ : c'.local_ = c.local_) (peer : c'.peerId.isSome)
      (idle : c.pc.current = none ∨ InCall c')
      (quiet : Undisturbed c a = true ↔ (c.local_.current.isSome → c'.callId.nullish = false))
  | connects (pc : c'.pc = c.pc.fill {}) (local_ : c'.local_ = c.local_)
      (peer : c'.peerId = none → c'.callId = .null)
      (quiet : Undisturbed c a = true ↔ c.pc.current = none ∧ InCall c')
  | acquires {video : Bool} {url : Text} (pc : c'.pc = c.pc)
      (local_ : c'.local_ = c.local_.fill (userMedia video url))
      (callId : c'.callId = c.callId) (peerId : c'.peerId = c.peerId)
      (quiet : Undisturbed c a = true ↔ c.local_.current = none ∧ InCall c)

theorem keeps_proceeds (id : Nat) (stage : Stage) : Keeps c (c.proceeds id stage) :=
  .of_eq rfl rfl rfl rfl

theorem keeps_ends (id : Nat) : Keeps c (c.ends id) := .of_eq rfl rfl rfl rfl

theorem keeps_signal (signal : CallSignal) : Keeps c (c.signal signal) := by
  unfold Manager.signal
  split
  · split <;> exact .of_eq rfl rfl rfl rfl
  · exact .of_eq rfl rfl rfl rfl

theorem Keeps.trans {c'' : Manager} (first : Keeps c c') (second : Keeps c' c'') : Keeps c c'' :=
  ⟨first.pc.trans second.pc, first.local_.trans second.local_,
    second.callId.trans first.callId, second.peerId.trans first.peerId⟩

theorem keeps_invokes (id : Nat) (stage : Stage) : Keeps c (c.invokes id stage) := by
  unfold Manager.invokes
  split <;> exact .of_eq rfl rfl rfl rfl

/-- A connection is told something; whether it is closed stays as it is. -/
theorem keeps_updateAt (n : Nat) (f : PeerConnection → PeerConnection)
    (same : ∀ p, (f p).closed = p.closed) : Keeps c { c with pc := c.pc.updateAt n f } :=
  ⟨Slot.same_updateAt fun p => by rw [Closed, Closed, same], .refl _, rfl, rfl⟩

theorem keeps_adds (n : Nat) (candidate : Candidate) : Keeps c (c.adds n candidate) :=
  keeps_updateAt n _ fun _ => rfl

theorem keeps_drainNext (id : Nat) (answering : Answering) (queued : List Candidate) :
    Keeps c (c.drainNext id answering queued) := by
  cases queued with
  | nil => exact keeps_proceeds ..
  | cons candidate rest =>
    simp only [Manager.drainNext]
    split
    · exact (keeps_adds ..).trans (keeps_proceeds ..)
    · exact keeps_proceeds ..

theorem keeps_drainIce (id : Nat) (answering : Answering) : Keeps c (c.drainIce id answering) := by
  unfold Manager.drainIce
  split
  · have emptied : Keeps c { c with pendingIce := [] } := .of_eq rfl rfl rfl rfl
    exact emptied.trans (keeps_drainNext ..)
  · exact keeps_proceeds ..

/-- Switching the tracks of a stream on or off stops none. -/
theorem keeps_toggle (kind : TrackKind) (enabled : Bool) (state : CallState) :
    Keeps c { c with local_ := c.local_.update (MediaStream.toggle · kind enabled), state } := by
  refine ⟨.refl _, Slot.same_update fun s => ?_, rfl, rfl⟩
  have kept (t : Track) : (if t.kind = kind then { t with enabled } else t).stopped = t.stopped := by
    split <;> rfl
  simp only [Stopped, MediaStream.toggle, List.forall_mem_map, kept]

theorem finishes_finish (pc : c'.pc = c.pc) (local_ : c'.local_ = c.local_) (outcome : Outcome)
    (reason : String) (now : Nat) : Finishes c (c'.finish outcome reason now) := by
  refine ⟨?_, ?_, rfl, rfl⟩
  · change (c'.pc.update _).clear = _
    rw [pc]
  · change (c'.local_.update _).clear = _
    rw [local_]

/-- Telling the peer comes before giving back. -/
theorem finishes_leaves (pc : c'.pc = c.pc) (local_ : c'.local_ = c.local_) (type : SignalType)
    (outcome : Outcome) (reason : String) (now : Nat) :
    Finishes c ((c'.leaves type).finish outcome reason now) := by
  have same : (c'.leaves type).pc = c'.pc ∧ (c'.leaves type).local_ = c'.local_ := by
    unfold Manager.leaves Manager.signal
    split
    · split
      · split <;> exact ⟨rfl, rfl⟩
      · exact ⟨rfl, rfl⟩
    · exact ⟨rfl, rfl⟩
  exact finishes_finish (same.1.trans pc) (same.2.trans local_) ..

/-! ## What each action does to them -/

theorem moves_permitted {granted built : Bool} {now : Nat} {random : Text} {stage : Stage}
    (waits : c.tasks.lookup id = some stage)
    (moved : c.permitted id granted built now random stage = some c') (referring : Referring c) :
    Moves c (.permitted id granted built now random) c' := by
  cases stage with
  | starting peerId peerName video =>
    cases moved
    cases granted with
    | false => exact .keeps (.of_eq rfl rfl rfl rfl) rfl
    | true =>
      cases built with
      | false => exact .rings rfl rfl rfl (.inr ⟨rfl, rfl⟩) ⟨fun _ _ => rfl, fun _ => rfl⟩
      | true =>
        refine .connects rfl rfl (fun absent => by cases absent) ?_
        rw [Undisturbed, waits]
        simp only [Option.isNone_iff_eq_none]
        exact ⟨fun empty => ⟨empty, rfl, rfl⟩, And.left⟩
  | accepting =>
    cases moved
    cases granted with
    | false =>
      have unheld : (c.ends id).pc = c.pc ∧ (c.ends id).local_ = c.local_ := ⟨rfl, rfl⟩
      exact .finishes (finishes_leaves unheld.1 unheld.2 ..) rfl
    | true =>
      cases built with
      | false => exact .keeps (keeps_ends id) rfl
      | true =>
        refine .connects rfl rfl referring.peer ?_
        rw [Undisturbed, waits]
        simp only [Bool.and_eq_true, Option.isNone_iff_eq_none, decide_eq_true_eq]
        rfl
  | _ => cases moved

theorem moves_acquired {url : Option Text} {added : Bool} {stage : Stage}
    (moved : c.acquired id url added stage = some c') : Moves c (.acquired id url added) c' := by
  cases stage with
  | acquiring placing video =>
    cases url with
    | none =>
      cases moved
      exact .keeps (keeps_ends id) rfl
    | some url =>
      cases moved
      dsimp only
      split <;> exact .acquires rfl rfl rfl rfl (by simp [Undisturbed])
  | _ => cases moved

theorem moves_described {stage : Stage} (moved : c.described id stage = some c') :
    Moves c (.described id) c' := by
  cases stage with
  | applying answering n applied =>
    cases applied with
    | false =>
      cases moved
      have told : Keeps c { c with
          pc := c.pc.updateAt n fun p => { p with remoteDescription := true } } :=
        keeps_updateAt n _ fun _ => rfl
      exact .keeps (told.trans (keeps_proceeds ..)) rfl
    | true => cases moved
  | _ => cases moved

theorem moves_resolved {sdp : Value} {built : Bool} {now : Nat} {stage : Stage}
    (moved : c.resolved id sdp built now stage = some c') :
    Moves c (.resolved id sdp built now) c' := by
  refine .keeps ?_ rfl
  cases stage with
  | attached placing =>
    cases placing with
    | start video =>
      cases moved
      exact keeps_invokes ..
    | accept =>
      cases moved
      split
      · split <;> exact .of_eq rfl rfl rfl rfl
      · exact keeps_ends id
  | offering | answering =>
    cases moved
    exact keeps_invokes ..
  | describingOffer =>
    cases moved
    exact (keeps_signal _).trans (keeps_ends id)
  | applying answering n applied =>
    cases applied with
    | false => cases moved
    | true =>
      cases moved
      exact keeps_drainIce ..
  | draining =>
    cases moved
    exact keeps_drainNext ..
  | drained answering =>
    cases answering with
    | accept =>
      cases moved
      exact keeps_invokes ..
    | onSignal =>
      cases moved
      exact .of_eq rfl rfl rfl rfl
  | describingAnswer answer =>
    cases moved
    exact (keeps_signal _).trans (.of_eq rfl rfl rfl rfl)
  | _ => cases moved

theorem moves_rejected {stage : Stage} (moved : c.rejected id stage = some c') :
    Moves c (.rejected id) c' := by
  refine .keeps ?_ rfl
  cases stage with
  | applying answering n applied =>
    cases applied with
    | false =>
      cases moved
      exact keeps_ends id
    | true => cases moved
  | draining =>
    cases moved
    exact keeps_drainNext ..
  | offering | describingOffer | answering | describingAnswer =>
    cases moved
    exact keeps_ends id
  | _ => cases moved

theorem keeps_accepted (signal : Value) (built : Bool) (now : Nat) :
    Keeps c (c.accepted signal built now) := by
  unfold Manager.accepted
  split
  · split
    · split
      · split <;> exact .of_eq rfl rfl rfl rfl
      · exact .of_eq rfl rfl rfl rfl
    · exact .of_eq rfl rfl rfl rfl
  · exact .of_eq rfl rfl rfl rfl

theorem keeps_trickles (signal : Value) (built : Bool) : Keeps c (c.trickles signal built) := by
  unfold Manager.trickles
  dsimp only
  split
  · split
    · split
      · exact keeps_adds ..
      · exact .of_eq rfl rfl rfl rfl
    · exact .of_eq rfl rfl rfl rfl
  · exact .of_eq rfl rfl rfl rfl

/-- A ring is taken, or the peer is told that one is busy. -/
theorem moves_rings {fromPeerId : Text} {signal : Value} {built : Bool} {now : Nat}
    (ring : Manager.typeOf signal = some .ring) :
    Moves c (.signal fromPeerId signal built now)
      { c.rings fromPeerId signal with signals := c.signals + 1 } := by
  unfold Manager.rings
  dsimp only
  split
  · next busy =>
    exact .keeps (.of_eq rfl rfl rfl rfl) (by simp [Undisturbed, busy])
  · next free =>
    simp only [Bool.not_eq_true] at free
    have empty : c.pc.current = none :=
      Option.not_isSome_iff_eq_none.mp fun held => by simp [Manager.busy, held] at free
    refine .rings rfl rfl rfl (.inl empty) ?_
    simp only [Undisturbed, ring, free]
    cases c.local_.current <;> simp

theorem moves_onSignal (fromPeerId : Text) (signal : Value) (built : Bool) (now : Nat) :
    Moves c (.signal fromPeerId signal built now) (c.onSignal fromPeerId signal built now) := by
  have counted {next : Manager} (kept : Keeps c next) :
      Keeps c { next with signals := c.signals + 1 } := kept.trans (.of_eq rfl rfl rfl rfl)
  unfold Manager.onSignal
  dsimp only
  cases type : Manager.typeOf signal with
  | none => exact .keeps (counted (.of_eq rfl rfl rfl rfl)) (by simp [Undisturbed, type])
  | some t =>
    cases t with
    | ring => exact moves_rings type
    | accept => exact .keeps (counted (keeps_accepted ..)) (by simp [Undisturbed, type])
    | ice => exact .keeps (counted (keeps_trickles ..)) (by simp [Undisturbed, type])
    | decline | hangup =>
      dsimp only
      split
      · refine .finishes ⟨rfl, rfl, rfl, rfl⟩ (by simp [Undisturbed, type])
      · exact .keeps (counted (.of_eq rfl rfl rfl rfl)) (by simp [Undisturbed, type])

theorem moves_of_step (referring : Referring c) (moved : c.step a = some c') : Moves c a c' := by
  cases a with
  | start =>
    cases moved
    refine .keeps ?_ rfl
    unfold Manager.start
    split <;> exact .of_eq rfl rfl rfl rfl
  | accept =>
    cases moved
    refine .keeps ?_ rfl
    unfold Manager.accept
    split <;> exact .of_eq rfl rfl rfl rfl
  | decline | hangup =>
    cases moved
    exact .finishes (finishes_leaves rfl rfl ..) rfl
  | toggleMute =>
    cases moved
    refine .keeps ?_ rfl
    unfold Manager.toggleMute
    split
    · exact keeps_toggle ..
    · exact .of_eq rfl rfl rfl rfl
  | toggleCamera =>
    cases moved
    refine .keeps ?_ rfl
    unfold Manager.toggleCamera
    split
    · exact keeps_toggle ..
    · exact .of_eq rfl rfl rfl rfl
  | signal =>
    cases moved
    exact moves_onSignal ..
  | permitted =>
    obtain ⟨stage, waits, moved⟩ := Option.bind_eq_some_iff.mp moved
    exact moves_permitted waits moved referring
  | acquired =>
    obtain ⟨stage, -, moved⟩ := Option.bind_eq_some_iff.mp moved
    exact moves_acquired moved
  | described =>
    obtain ⟨stage, -, moved⟩ := Option.bind_eq_some_iff.mp moved
    exact moves_described moved
  | resolved =>
    obtain ⟨stage, -, moved⟩ := Option.bind_eq_some_iff.mp moved
    exact moves_resolved moved
  | rejected =>
    obtain ⟨stage, -, moved⟩ := Option.bind_eq_some_iff.mp moved
    exact moves_rejected moved
  | icecandidate connection candidate =>
    obtain ⟨-, same⟩ := Option.ite_none_right_eq_some.mp moved
    cases same
    refine .keeps ?_ rfl
    unfold Manager.icecandidate
    split
    · split
      · exact keeps_signal _
      · exact .of_eq rfl rfl rfl rfl
    · exact .of_eq rfl rfl rfl rfl
  | track connection url =>
    obtain ⟨-, same⟩ := Option.ite_none_right_eq_some.mp moved
    cases same
    refine .keeps ?_ rfl
    unfold Manager.track
    split <;> exact .of_eq rfl rfl rfl rfl
  | connectionstatechange connection lost now =>
    obtain ⟨-, same⟩ := Option.ite_none_right_eq_some.mp moved
    cases same
    unfold Manager.connectionstatechange
    split
    · exact .finishes (finishes_finish rfl rfl ..) rfl
    · exact .keeps (.of_eq rfl rfl rfl rfl) rfl
  | timer =>
    obtain ⟨-, same⟩ := Option.ite_none_right_eq_some.mp moved
    cases same
    exact .keeps (.of_eq rfl rfl rfl rfl) rfl

/-! ## Every state -/

theorem not_closed_new : ¬ Closed {} := by simp [Closed]

theorem not_stopped_userMedia (video : Bool) (url : Text) : ¬ Stopped (userMedia video url) := by
  simp [Stopped, userMedia]

theorem closed_close (p : PeerConnection) : Closed p.close := rfl

theorem stopped_stop (s : MediaStream) : Stopped s.stop := by
  simp [Stopped, MediaStream.stop, Track.stop]

theorem Keeps.inCall (kept : Keeps c c') : InCall c' ↔ InCall c := by
  rw [InCall, InCall, kept.callId, kept.peerId]

theorem step_referring (referring : Referring c) (moved : c.step a = some c') : Referring c' := by
  cases moves_of_step referring moved with
  | keeps same =>
    refine ⟨same.pc.live referring.connection, same.local_.live referring.stream, ?_⟩
    rw [same.peerId, same.callId]
    exact referring.peer
  | finishes gone =>
    refine ⟨?_, ?_, fun _ => gone.callId⟩
    · rw [gone.pc]
      exact Slot.live_clear
    · rw [gone.local_]
      exact Slot.live_clear
  | rings pc local_ peer =>
    refine ⟨pc ▸ referring.connection, local_ ▸ referring.stream, fun absent => ?_⟩
    rw [absent] at peer
    cases peer
  | connects pc local_ peer =>
    refine ⟨?_, local_ ▸ referring.stream, peer⟩
    rw [pc]
    exact Slot.live_fill not_closed_new
  | acquires pc local_ callId peerId =>
    refine ⟨pc ▸ referring.connection, ?_, ?_⟩
    · rw [local_]
      exact Slot.live_fill (not_stopped_userMedia _ _)
    · rw [peerId, callId]
      exact referring.peer

theorem started_referring (started : callManager.start c) : Referring c := by
  subst started
  exact ⟨Slot.live_empty, Slot.live_empty, fun _ => rfl⟩

theorem reached_referring {ok : Manager → Action → Prop} (reached : callManager.Reached ok c) :
    Referring c :=
  reached.invariant Referring (fun _ => started_referring)
    fun _ _ _ referring _ moved => step_referring referring moved

/-! ## Undisturbed steps -/

/-- A step orphans nothing exactly if it is undisturbed. -/
theorem step_noOrphans (referring : Referring c) (clean : NoOrphans c)
    (moved : c.step a = some c') : NoOrphans c' ↔ Undisturbed c a = true := by
  cases moves_of_step referring moved with
  | keeps same quiet =>
    refine iff_of_true ⟨?_, ?_, same.pc.clean.mpr clean.closed, same.local_.clean.mpr clean.stopped⟩
      quiet
    · rw [same.pc.current, same.inCall]
      exact clean.connection
    · rw [same.local_.current, same.inCall]
      exact clean.stream
  | finishes gone quiet =>
    refine iff_of_true ⟨?_, ?_, ?_, ?_⟩ quiet
    · simp [gone.pc]
    · simp [gone.local_]
    · rw [gone.pc]
      exact Slot.clean_release closed_close clean.closed
    · rw [gone.local_]
      exact Slot.clean_release stopped_stop clean.stopped
  | rings pc local_ peer idle quiet =>
    rw [quiet]
    constructor
    · intro clean' held
      exact (clean'.stream (local_ ▸ held)).1
    · intro called
      refine ⟨fun held => ?_, fun held => ⟨called (local_ ▸ held), peer⟩, pc ▸ clean.closed,
        local_ ▸ clean.stopped⟩
      rcases idle with empty | calling
      · rw [pc, empty] at held
        cases held
      · exact calling
  | connects pc local_ peer quiet =>
    rw [quiet]
    constructor
    · intro clean'
      have closed := clean'.closed
      rw [pc, Slot.clean_fill referring.connection] at closed
      exact ⟨closed.2, clean'.connection (by rw [pc]; rfl)⟩
    · rintro ⟨empty, calling⟩
      refine ⟨fun _ => calling, fun _ => calling, ?_, local_ ▸ clean.stopped⟩
      rw [pc, Slot.clean_fill referring.connection]
      exact ⟨clean.closed, empty⟩
  | acquires pc local_ callId peerId quiet =>
    have same : InCall c' ↔ InCall c := by rw [InCall, InCall, callId, peerId]
    rw [quiet]
    constructor
    · intro clean'
      have stopped := clean'.stopped
      rw [local_, Slot.clean_fill referring.stream] at stopped
      exact ⟨stopped.2, same.mp (clean'.stream (by rw [local_]; rfl))⟩
    · rintro ⟨empty, calling⟩
      refine ⟨fun _ => same.mpr calling, fun _ => same.mpr calling, pc ▸ clean.closed, ?_⟩
      rw [local_, Slot.clean_fill referring.stream]
      exact ⟨clean.stopped, empty⟩

theorem started_noOrphans (started : callManager.start c) : NoOrphans c := by
  subst started
  exact ⟨fun held => absurd held (by simp), fun held => absurd held (by simp), Slot.clean_empty,
    Slot.clean_empty⟩

/-- The runs of undisturbed steps are those that at no time leave anything orphaned. -/
theorem reached_undisturbed_iff : callManager.Reached (fun c a => Undisturbed c a = true) c ↔
    callManager.Throughout NoOrphans c :=
  Machine.reached_iff_throughout (fun _ => started_noOrphans)
    fun _ _ _ reachable clean moved => step_noOrphans (reached_referring reachable) clean moved

theorem reached_noOrphans (reached : callManager.Reached (fun c a => Undisturbed c a = true) c) :
    NoOrphans c :=
  (reached_undisturbed_iff.mp reached).holds fun _ => started_noOrphans

/-- A track that runs is of a stream that is held. -/
theorem NoOrphans.running (clean : NoOrphans c) {s : MediaStream} (made : s ∈ c.local_.made)
    (running : ¬ Stopped s) : InCall c := by
  obtain ⟨n, here⟩ := List.mem_iff_getElem?.mp made
  refine clean.stream ?_
  cases held : c.local_.current with
  | some m => rfl
  | none => exact absurd (clean.stopped n s here (by simp [held])) running

/-- Who is told that one is busy is told so because of a call. -/
theorem NoOrphans.busy (clean : NoOrphans c) (referring : Referring c) (busy : c.busy) :
    InCall c := by
  rcases Bool.or_eq_true_iff.mp busy with held | called
  · exact clean.connection held
  · refine ⟨?_, ?_⟩
    · cases id : c.callId with
      | primitive p => cases p <;> simp_all [Value.truthy, Value.nullish]
      | _ => rfl
    · cases peer : c.peerId with
      | some peerId => rfl
      | none =>
        rw [referring.peer peer] at called
        cases called

/-- **No orphaned media.** A run whose every step is undisturbed leaves at no time a
connection or a stream without a call, a connection open or a track running that is not of
the current call, or a ring declined as busy without a call. -/
theorem media_belong_to_calls
    (reached : callManager.Reached (fun c a => Undisturbed c a = true) c) :
    NoOrphans c ∧ (∀ s ∈ c.local_.made, ¬ Stopped s → InCall c) ∧ (c.busy → InCall c) := by
  have clean := reached_noOrphans reached
  exact ⟨clean, fun s made running => clean.running made running,
    clean.busy (reached_referring reached)⟩

/-- A video call to bob, who answers, trickles a candidate and hangs up. -/
def videoCall : List Action :=
  [ .start (utf16 "bob") none true, .permitted 0 true true 0 [], .acquired 0 (some []) true,
    .resolved 0 .undefined true 0, .resolved 0 (.string (utf16 "offer")) true 0,
    .resolved 0 .undefined true 0,
    .signal (utf16 "bob") (.object [
      (utf16 "type", .string (utf16 "accept")), (utf16 "callId", newCallId 0 []),
      (utf16 "sdp", .boolean true)]) true 1,
    .described 1, .resolved 1 .undefined true 1, .resolved 1 .undefined true 1, .toggleCamera ]

/-- What is held, what of it is in use, and whether anything is yet to come. -/
structure Held where
  pc : Option Nat
  local_ : Option Nat
  inCall : Bool
  busy : Bool
  closed : List Bool
  stopped : List Bool
  waiting : Nat
  timers : Nat
  deriving DecidableEq

def held (c : Manager) : Held where
  pc := c.pc.current
  local_ := c.local_.current
  inCall := InCall c
  busy := c.busy
  closed := c.pc.made.map PeerConnection.closed
  stopped := c.local_.made.map fun s => s.tracks.all Track.stopped
  waiting := (FinMap.values c.tasks).length
  timers := c.timers

theorem video_call_orphans_nothing : ∃ c, c.state.status = .active ∧ c.busy ∧
    c.local_.current = some 0 ∧
    NoOrphans c ∧ (∀ s ∈ c.local_.made, ¬ Stopped s → InCall c) ∧ (c.busy → InCall c) := by
  have observed : (callManager.checkedRun (fun c a => Undisturbed c a = true) {} videoCall).map
      (fun c => (held c, c.state.status)) =
        some (⟨some 0, some 0, true, true, [false], [false], 0, 0⟩, .active) := by decide +kernel
  obtain ⟨c, ran, seen⟩ := Option.map_eq_some_iff.mp observed
  obtain ⟨holds, status⟩ := Prod.mk.inj seen
  obtain ⟨-, stream, -, busy, -⟩ : _ ∧ _ ∧ _ ∧ _ ∧ _ := by
    simpa only [held, Held.mk.injEq] using holds
  exact ⟨c, status, busy, stream, media_belong_to_calls (.checkedRun (.start rfl) videoCall ran)⟩

/-- One hangs up before the microphone is there. -/
def hangupFirst : List Action :=
  [ .start (utf16 "bob") none false, .permitted 0 true true 0 [], .hangup 1,
    .acquired 0 (some []) true, .timer ]

/-- Bob's call is accepted, and he hangs up while the permission is asked for. -/
def callerHangsUp : List Action :=
  [ .signal (utf16 "bob") (.object [
      (utf16 "type", .string (utf16 "ring")), (utf16 "callId", .string (utf16 "call")),
      (utf16 "sdp", .boolean true)]) true 0,
    .accept,
    .signal (utf16 "bob") (.object [
      (utf16 "type", .string (utf16 "hangup")), (utf16 "callId", .string (utf16 "call"))]) true 0,
    .permitted 0 true true 0 [], .acquired 0 (some []) true, .resolved 0 .undefined false 0, .timer ]

/-- Bob and carol are called before the permission is there, and one hangs up. -/
def twoCalls : List Action :=
  [ .start (utf16 "bob") none false, .start (utf16 "carol") none false,
    .permitted 0 true true 0 [], .permitted 1 true true 0 [],
    .acquired 0 (some []) true, .acquired 1 (some []) true, .hangup 1,
    .resolved 0 .undefined true 1, .resolved 1 .undefined true 1, .timer ]

/-- A quiet state that holds something without a call. -/
theorem orphans_of_held {h : Held} (seen : held c = h) (quiet : h.waiting = 0 ∧ h.timers = 0)
    (holds : h.pc.isSome ∨ h.local_.isSome) (left : h.inCall = false) :
    c.Quiescent ∧ ¬ NoOrphans c := by
  subst seen
  have none : ¬ InCall c := by simpa [held] using left
  refine ⟨⟨List.length_eq_zero_iff.mp quiet.1, quiet.2⟩, fun clean => ?_⟩
  rcases holds with pc | stream
  · exact none (clean.connection pc)
  · exact none (clean.stream stream)

/-- At rest, the microphone is on without a call; every ring is declined as busy without a
call; a connection and a stream of a call that was replaced are never given back. -/
theorem media_outlive_their_calls :
    (∃ c, callManager.Reachable c ∧
      held c = ⟨none, some 0, false, false, [true], [false], 0, 0⟩ ∧
      c.Quiescent ∧ ¬ NoOrphans c) ∧
    (∃ c, callManager.Reachable c ∧
      held c = ⟨some 0, some 0, false, true, [false], [false], 0, 0⟩ ∧
      c.Quiescent ∧ ¬ NoOrphans c) ∧
    ∃ c, callManager.Reachable c ∧
      held c = ⟨none, none, false, false, [false, true], [false, true], 0, 0⟩ ∧
      c.Quiescent ∧ ¬ NoOrphans c := by
  have first : (callManager.run {} hangupFirst).map held =
      some ⟨none, some 0, false, false, [true], [false], 0, 0⟩ := by decide +kernel
  have second : (callManager.run {} callerHangsUp).map held =
      some ⟨some 0, some 0, false, true, [false], [false], 0, 0⟩ := by decide +kernel
  have third : (callManager.run {} twoCalls).map held =
      some ⟨none, none, false, false, [false, true], [false, true], 0, 0⟩ := by decide +kernel
  refine ⟨?_, ?_, ?_⟩
  · obtain ⟨c, reachable, seen⟩ := Machine.reachable_of_observed first rfl
    exact ⟨c, reachable, seen,
      orphans_of_held seen ⟨rfl, rfl⟩ (.inr rfl) rfl⟩
  · obtain ⟨c, reachable, seen⟩ := Machine.reachable_of_observed second rfl
    exact ⟨c, reachable, seen,
      orphans_of_held seen ⟨rfl, rfl⟩ (.inl rfl) rfl⟩
  · obtain ⟨c, reachable, seen⟩ := Machine.reachable_of_observed third rfl
    obtain ⟨-, stream, -, -, -, stopped, waiting, timers⟩ :
        _ ∧ _ ∧ _ ∧ _ ∧ _ ∧ _ ∧ _ ∧ _ := by simpa only [held, Held.mk.injEq] using seen
    refine ⟨c, reachable, seen,
      ⟨List.length_eq_zero_iff.mp waiting, timers⟩, fun clean => ?_⟩
    obtain ⟨s, rest, made, running, -⟩ := List.map_eq_cons_iff.mp stopped
    refine absurd (clean.stopped 0 s (by rw [made]; rfl) (by simp [stream])) fun all => ?_
    rw [List.all_eq_true.mpr fun t member => all t member] at running
    cases running

end Hwfa.CallMedia
