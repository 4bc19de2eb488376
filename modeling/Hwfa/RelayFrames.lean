import Hwfa.RelayAddressing

/-!
What one step of the relay does to one connection: to the frames of its channel
and to the point its handler is at.

`Moves` lists the steps; here they are sorted by what a single connection sees
of them, which is what statements about the frames of one connection need.
-/

namespace Hwfa.RelayFrames

open Hwfa.RelayEnvelope Hwfa.RelayHub Hwfa.RelayProcess Hwfa.RelayWiring

/-- The ack of an accepted envelope. -/
def ackFrame (id clientRef : String) (acceptedAt : Int) : RelayMessage :=
  { kind := "ack", envelopeID := id, acceptedAt := acceptedAt, clientRef := clientRef }

/-- The frame a receipt is forwarded as. -/
def statusFrame (msg : RelayMessage) : RelayMessage :=
  { kind := "status", envelopeID := msg.envelopeID, status := msg.status }

/-- The connection a receipt frame is forwarded to, if `readPump` forwards it. -/
def forwardsTo (s : Relay) (msg : RelayMessage) : Option ConnId :=
  if msg.kind = "receipt" ∧ msg.targetID ≠ "" ∧ (msg.status = "delivered" ∨ msg.status = "read") then
    s.hub.conns (routeKey msg.targetID msg.targetDevice)
  else none

/-- The submission a `send` frame makes. -/
def submits (s : Relay) (cl : Client) (msg : RelayMessage) : Option Submission :=
  if msg.kind = "send" then
    msg.envelope.map fun envelope =>
      ⟨cl.userID, cl.deviceID, envelope, (s.hub.count.stamp (cl.stampSender envelope)).id⟩
  else none

/-- What a handler is about to put on the channel of `c`. -/
inductive Sends (s : Relay) : Action → ConnId → RelayMessage → Prop where
  | flush {c : ConnId} {cl : Client} {qe : QueuedEnvelope} {rest : List QueuedEnvelope}
      (found : s.clients c = some cl) (pc : cl.pc = .flushing (qe :: rest)) :
      Sends s (.at c .flush) c (deliver qe.env)
  | live {c d : ConnId} {cl : Client} {env : Envelope} {clientRef : String}
      (found : s.clients d = some cl) (pc : cl.pc = .routing c env clientRef) :
      Sends s (.at d .sendLive) c (deliver env)
  | ack {c : ConnId} {cl : Client} {id clientRef : String} {acceptedAt : Int}
      (found : s.clients c = some cl) (pc : cl.pc = .acking id clientRef) :
      Sends s (.at c (.ack acceptedAt)) c (ackFrame id clientRef acceptedAt)
  | forward {c d : ConnId} {cl : Client} {msg : RelayMessage}
      (found : s.clients d = some cl) (pc : cl.pc = .forwarding c msg) :
      Sends s (.at d .forward) c msg

/-- The channel and the writer of a connection, over one step. -/
inductive ChannelStep (s : Relay) (a : Action) (c : ConnId) (cl cl' : Client) : Prop where
  | rests (out : cl'.out = cl.out) (placed : cl'.placed = cl.placed) (writer : cl'.writer = cl.writer)
      (refused : ∀ msg, Sends s a c msg → outCapacity ≤ cl.out.length ∨ cl.outClosed = true)
      (unwritten : a ≠ .at c (.write true))
  | gains (msg : RelayMessage) (sends : Sends s a c msg) (out : cl'.out = cl.out ++ [msg])
      (placed : cl'.placed = cl.placed ++ [msg]) (writer : cl'.writer = cl.writer)
  | starts (step : a = .at c .startWriter) (out : cl'.out = cl.out) (placed : cl'.placed = cl.placed)
      (unstarted : cl.writer = .unstarted) (writer : cl'.writer = .ranging)
  | takes (msg : RelayMessage) (step : a = .at c .take) (out : cl.out = msg :: cl'.out)
      (placed : cl'.placed = cl.placed) (ranging : cl.writer = .ranging)
      (writer : cl'.writer = .writing msg)
  | writes (msg : RelayMessage) (step : a = .at c (.write true)) (out : cl'.out = cl.out)
      (placed : cl'.placed = cl.placed) (writing : cl.writer = .writing msg)
      (writer : cl'.writer = .ranging)
  | fails (step : a = .at c (.write false)) (out : cl'.out = cl.out) (placed : cl'.placed = cl.placed)
      (writer : cl'.writer = .returned)
  | drained (step : a = .at c .drained) (out : cl'.out = cl.out) (placed : cl'.placed = cl.placed)
      (empty : cl.out = []) (closed : cl.outClosed = true) (ranging : cl.writer = .ranging) (writer : cl'.writer = .returned)

/-- A point at which the handler has no frame but those of a flush in its hands. -/
def Plain : Pc → Prop
  | .routing .. | .acking .. | .forwarding .. => False
  | _ => True

/-- The handler has not begun to leave. -/
def Running : Pc → Prop
  | .leaving | .unregistered | .channelClosed | .gone => False
  | _ => True

/-- Only the four sending steps send. -/
def silent : Move → Bool
  | .flush | .sendLive | .ack _ | .forward => false
  | _ => true

/-- The handler of a connection, over one step: from the point of `cl` to the
last argument. -/
inductive HandlerStep (s : Relay) (c : ConnId) (cl : Client) : Action → Pc → Prop where
  | stays {a : Action} (unsent : ∀ move, a = .at c move → silent move = true) :
      HandlerStep s c cl a cl.pc
  | routes {msg : RelayMessage} {sub : Submission} {target : ConnId} {env : Envelope}
      {enqueuedAt now : Int} {wrote : Bool} (reading : cl.pc = .reading)
      (submitted : submits s cl msg = some sub) (stamped : env.id = sub.id) :
      HandlerStep s c cl (.at c (.frame (some msg) enqueuedAt now wrote))
        (.routing target env msg.clientRef)
  | queues {msg : RelayMessage} {sub : Submission} {enqueuedAt now : Int} {wrote : Bool}
      (reading : cl.pc = .reading) (submitted : submits s cl msg = some sub) :
      HandlerStep s c cl (.at c (.frame (some msg) enqueuedAt now wrote))
        (.acking sub.id msg.clientRef)
  | hears {msg : RelayMessage} {target : ConnId} {enqueuedAt now : Int} {wrote : Bool}
      (reading : cl.pc = .reading) (forwards : forwardsTo s msg = some target) :
      HandlerStep s c cl (.at c (.frame (some msg) enqueuedAt now wrote))
        (.forwarding target (statusFrame msg))
  | accepts {target : ConnId} {env : Envelope} {clientRef : String}
      (routing : cl.pc = .routing target env clientRef) :
      HandlerStep s c cl (.at c .sendLive) (.acking env.id clientRef)
  | acks {id clientRef : String} {acceptedAt : Int} (acking : cl.pc = .acking id clientRef) :
      HandlerStep s c cl (.at c (.ack acceptedAt)) .reading
  | forwarded {target : ConnId} {msg : RelayMessage} (forwarding : cl.pc = .forwarding target msg) :
      HandlerStep s c cl (.at c .forward) .reading
  | panics {move : Move} {target : ConnId} {msg : RelayMessage}
      (sends : Sends s (.at c move) target msg)
      (closed : ∀ clt, s.clients target = some clt → clt.outClosed = true) :
      HandlerStep s c cl (.at c move) .leaving
  | moves {move : Move} {pc : Pc} (before : Plain cl.pc) (after : Plain pc)
      (running : Running cl.pc → Running pc ∨ move = .readError) :
      HandlerStep s c cl (.at c move) pc

variable {s s' : Relay} {a : Action} {c d : ConnId} {cl : Client}

/-- A step sends one frame at most. -/
theorem Sends.unique {msg msg' : RelayMessage} (first : Sends s a c msg)
    (second : Sends s a d msg') : c = d ∧ msg = msg' := by
  cases first with
  | flush found pc =>
    cases second with
    | flush found' pc' =>
      rw [found] at found'
      cases found'
      rw [pc] at pc'
      cases pc'
      exact ⟨rfl, rfl⟩
  | live found pc =>
    cases second with
    | live found' pc' =>
      rw [found] at found'
      cases found'
      rw [pc] at pc'
      cases pc'
      exact ⟨rfl, rfl⟩
  | ack found pc =>
    cases second with
    | ack found' pc' =>
      rw [found] at found'
      cases found'
      rw [pc] at pc'
      cases pc'
      exact ⟨rfl, rfl⟩
  | forward found pc =>
    cases second with
    | forward found' pc' =>
      rw [found] at found'
      cases found'
      rw [pc] at pc'
      cases pc'
      exact ⟨rfl, rfl⟩

theorem Sends.not_silent {move : Move} {msg : RelayMessage} (sends : Sends s (.at c move) d msg) :
    silent move = false := by
  cases sends <;> rfl

theorem no_send {move : Move} (quiet : silent move = true) (msg : RelayMessage) :
    ¬ Sends s (.at c move) d msg := by
  intro sends
  rw [sends.not_silent] at quiet
  cases quiet

/-- A send is a step of some handler. -/
theorem Sends.taken {target : ConnId} {msg : RelayMessage} (sends : Sends s a target msg) :
    ∃ c move, a = .at c move := by
  cases sends <;> exact ⟨_, _, rfl⟩

/-- What a handler sends to is there. -/
theorem Sends.target_known {target : ConnId} {msg : RelayMessage} (sends : Sends s a target msg)
    (wired : Wired s) : ∃ clt, s.clients target = some clt := by
  cases sends with
  | flush found pc => exact ⟨_, found⟩
  | live found pc => exact wired.known _ _ target found (by rw [pc]; rfl)
  | ack found pc => exact ⟨_, found⟩
  | forward found pc => exact wired.known _ _ target found (by rw [pc]; rfl)

/-- A handler that runs has not closed its channel. -/
theorem not_closed_of_running {pc : Pc} (running : Running pc) : ¬ Closed pc := by
  rintro (rfl | rfl)
  · exact running
  · exact running

/-- A record found before a step of `modify` is found after it. -/
theorem modify_after (f : Client → Client) (found : s.clients d = some cl) :
    (s.modify c f).clients d = some (if d = c then f cl else cl) := by
  by_cases own : d = c
  · subst own
    rw [modify_self f found, if_pos rfl]
  · rw [modify_ne f own, found, if_neg own]

theorem Sends.unwritten {msg : RelayMessage} (sends : Sends s a c msg) : a ≠ .at d (.write true) := by
  rintro rfl
  cases sends

/-- What is left of a connection by a step that changes some handler's point only. -/
theorem rests_of_goto {pc : Pc} (found : s.clients d = some cl)
    (clients : s'.clients = (s.goto c pc).clients)
    (refused : ∀ msg, Sends s a d msg → outCapacity ≤ cl.out.length ∨ cl.outClosed = true)
    (unwritten : a ≠ .at d (.write true)) :
    ∃ cl', s'.clients d = some cl' ∧ Same cl cl' ∧ ChannelStep s a d cl cl' := by
  refine ⟨_, (congrFun clients d).trans (modify_after _ found), ?_⟩
  split
  · exact ⟨⟨rfl, rfl, rfl⟩, .rests rfl rfl rfl refused unwritten⟩
  · exact ⟨⟨rfl, rfl, rfl⟩, .rests rfl rfl rfl refused unwritten⟩

/-- What a send does to a connection, and the handler's move after it. -/
theorem channel_of_send {target : ConnId} {msg : RelayMessage} {pc : Pc} {s₁ : Relay}
    (sends : Sends s a target msg) (sent : s.send target msg = some s₁)
    (clients : s'.clients = (s₁.goto c pc).clients) (found : s.clients d = some cl) :
    ∃ cl', s'.clients d = some cl' ∧ Same cl cl' ∧ ChannelStep s a d cl cl' := by
  obtain ⟨clt, target_found, _, ⟨_, rfl⟩ | ⟨full, rfl⟩⟩ := send_cases sent
  · refine ⟨_, (congrFun clients d).trans (modify_after _ (modify_after _ found)), ?_⟩
    by_cases own : d = target
    · subst own
      rw [found] at target_found
      cases target_found
      rw [if_pos rfl]
      split
      · exact ⟨⟨rfl, rfl, rfl⟩, .gains msg sends rfl rfl rfl⟩
      · exact ⟨⟨rfl, rfl, rfl⟩, .gains msg sends rfl rfl rfl⟩
    · have refused (msg' : RelayMessage) (other : Sends s a d msg') :
          outCapacity ≤ cl.out.length ∨ cl.outClosed = true :=
        absurd (other.unique sends).1 own
      rw [if_neg own]
      split
      · exact ⟨⟨rfl, rfl, rfl⟩, .rests rfl rfl rfl refused sends.unwritten⟩
      · exact ⟨⟨rfl, rfl, rfl⟩, .rests rfl rfl rfl refused sends.unwritten⟩
  · refine rests_of_goto found clients ?_ sends.unwritten
    intro msg' other
    obtain ⟨rfl, rfl⟩ := other.unique sends
    rw [found] at target_found
    cases target_found
    exact .inl full

/-- A send that panics found the channel closed. -/
theorem refused_of_panic {target : ConnId} {msg : RelayMessage} (sends : Sends s a target msg)
    (panicked : s.send target msg = none) (found : s.clients d = some cl) (msg' : RelayMessage)
    (other : Sends s a d msg') : outCapacity ≤ cl.out.length ∨ cl.outClosed = true := by
  obtain ⟨rfl, rfl⟩ := other.unique sends
  exact .inr ((send_panics found).mp panicked)

/-- The sent ack is the one the handler was about to send. -/
theorem step_ack {acceptedAt : Int} (moved : s.step (.at c (.ack acceptedAt)) = some s') :
    ∃ cl id clientRef, s.clients c = some cl ∧ cl.pc = .acking id clientRef ∧
      s' = s.sendFrom c c (ackFrame id clientRef acceptedAt) (·.goto c .reading) .leaving := by
  simp only [Relay.step, Option.bind_eq_some_iff, Relay.stepAt] at moved
  obtain ⟨cl, found, moved⟩ := moved
  split at moved
  · next id clientRef pc =>
    cases moved
    exact ⟨cl, id, clientRef, found, pc, rfl⟩
  · cases moved

/-- What is left of a connection by a step that touches nobody's channel. -/
theorem rests_of_modify {f : Client → Client} {move : Move} (found : s.clients d = some cl)
    (clients : s'.clients = (s.modify c f).clients)
    (same : ∀ cl, Same cl (f cl) ∧ (f cl).out = cl.out ∧ (f cl).placed = cl.placed ∧
      (f cl).writer = cl.writer)
    (quiet : silent move = true) (unwritten : ∀ ok, move ≠ .write ok) :
    ∃ cl', s'.clients d = some cl' ∧ Same cl cl' ∧ ChannelStep s (.at c move) d cl cl' := by
  refine ⟨_, (congrFun clients d).trans (modify_after _ found), ?_⟩
  have refused (msg : RelayMessage) (sends : Sends s (.at c move) d msg) :
      outCapacity ≤ cl.out.length ∨ cl.outClosed = true := absurd sends (no_send quiet msg)
  have other : Action.at c move ≠ .at d (.write true) := by
    intro same
    cases same
    exact unwritten true rfl
  split
  · obtain ⟨kept, out, placed, writer⟩ := same cl
    exact ⟨kept, .rests out placed writer refused other⟩
  · exact ⟨⟨rfl, rfl, rfl⟩, .rests rfl rfl rfl refused other⟩

/-- What a step of a connection's writer does to every connection. -/
theorem writer_of_modify {f : Client → Client} {move : Move} {clc : Client}
    (found : s.clients d = some cl) (found' : s.clients c = some clc) (same : Same clc (f clc))
    (quiet : silent move = true) (writes : ChannelStep s (.at c move) c clc (f clc)) :
    ∃ cl', (s.modify c f).clients d = some cl' ∧ Same cl cl' ∧
      ChannelStep s (.at c move) d cl cl' := by
  refine ⟨_, modify_after _ found, ?_⟩
  have refused (msg : RelayMessage) (sends : Sends s (.at c move) d msg) :
      outCapacity ≤ cl.out.length ∨ cl.outClosed = true := absurd sends (no_send quiet msg)
  split
  · next own =>
    subst own
    rw [found] at found'
    cases found'
    exact ⟨same, writes⟩
  · next other =>
    refine ⟨⟨rfl, rfl, rfl⟩, .rests rfl rfl rfl refused ?_⟩
    intro same
    cases same
    exact other rfl

/-- A step that reads a frame without acting on it leaves every channel alone. -/
theorem rests_of_frame {msg : Option RelayMessage} {enqueuedAt now : Int} {wrote : Bool} :
    ChannelStep s (.at c (.frame msg enqueuedAt now wrote)) d cl cl := by
  refine .rests rfl rfl rfl ?_ ?_
  · intro msg sends
    cases sends
  · intro same
    cases same

/-- Every connection is still there after a step, and its channel has moved on
as listed. -/
theorem step_channel (wired : Wired s) (moved : s.step a = some s') (found : s.clients d = some cl) :
    ∃ cl', s'.clients d = some cl' ∧ Same cl cl' ∧ ChannelStep s a d cl cl' := by
  cases step_moves moved with
  | connect userID deviceID =>
    refine ⟨cl, ?_, ⟨rfl, rfl, rfl⟩, .rests rfl rfl rfl ?_ ?_⟩
    · rw [connect_ne, found]
      rintro rfl
      rw [wired.fresh s.nextConn (Nat.le_refl _)] at found
      cases found
    · intro msg sends
      cases sends
    · intro same
      cases same
  | register _ _ =>
    exact rests_of_modify found rfl (fun _ => ⟨⟨rfl, rfl, rfl⟩, rfl, rfl, rfl⟩) rfl (by simp)
  | flush found' pc sent => exact channel_of_send (.flush found' pc) sent rfl found
  | flushPanic found' pc panicked =>
    exact rests_of_goto found rfl (refused_of_panic (.flush found' pc) panicked found) (by simp)
  | startWriter found' pc =>
    exact writer_of_modify found found' ⟨rfl, rfl, rfl⟩ rfl
      (.starts rfl rfl rfl (wired.unstarted _ _ found' (by rw [pc]; trivial)) rfl)
  | take found' writer out =>
    exact writer_of_modify found found' ⟨rfl, rfl, rfl⟩ rfl (.takes _ rfl out rfl writer rfl)
  | write found' writer =>
    exact writer_of_modify found found' ⟨rfl, rfl, rfl⟩ rfl (.writes _ rfl rfl rfl writer rfl)
  | writeError found' writer =>
    exact writer_of_modify found found' ⟨rfl, rfl, rfl⟩ rfl (.fails rfl rfl rfl rfl)
  | drained found' writer out closed =>
    exact writer_of_modify found found' ⟨rfl, rfl, rfl⟩ rfl (.drained rfl rfl rfl out closed writer rfl)
  | ignore _ _ => exact ⟨cl, found, ⟨rfl, rfl, rfl⟩, rests_of_frame⟩
  | registerPush _ _ => exact ⟨cl, found, ⟨rfl, rfl, rfl⟩, rests_of_frame⟩
  | routeLive _ _ _ _ =>
    exact rests_of_modify found rfl (fun _ => ⟨⟨rfl, rfl, rfl⟩, rfl, rfl, rfl⟩) rfl (by simp)
  | routeOffline _ _ _ _ =>
    exact rests_of_modify found rfl (fun _ => ⟨⟨rfl, rfl, rfl⟩, rfl, rfl, rfl⟩) rfl (by simp)
  | receipt _ _ _ _ =>
    exact rests_of_modify found rfl (fun _ => ⟨⟨rfl, rfl, rfl⟩, rfl, rfl, rfl⟩) rfl (by simp)
  | sendLive found' pc sent => exact channel_of_send (.live found' pc) sent rfl found
  | sendLivePanic found' pc panicked =>
    exact rests_of_goto found rfl (refused_of_panic (.live found' pc) panicked found) (by simp)
  | ack found' pc kind sent =>
    -- the frame of the inversion is some ack: the step says which
    obtain ⟨cl₀, id, clientRef, found₀, pc₀, result⟩ := step_ack moved
    rw [result]
    unfold Relay.sendFrom
    split
    · next s₂ sent₂ => exact channel_of_send (.ack found₀ pc₀) sent₂ rfl found
    · next panicked =>
      exact rests_of_goto found rfl (refused_of_panic (.ack found₀ pc₀) panicked found) (by simp)
  | ackPanic found' pc panicked =>
    exact absurd panicked (wired.own_send found' (by rw [pc]; simp [Closed]))
  | forward found' pc sent => exact channel_of_send (.forward found' pc) sent rfl found
  | forwardPanic found' pc panicked =>
    exact rests_of_goto found rfl (refused_of_panic (.forward found' pc) panicked found) (by simp)
  | readError _ _ =>
    exact rests_of_modify found rfl (fun _ => ⟨⟨rfl, rfl, rfl⟩, rfl, rfl, rfl⟩) rfl (by simp)
  | unregister _ _ =>
    exact rests_of_modify found rfl (fun _ => ⟨⟨rfl, rfl, rfl⟩, rfl, rfl, rfl⟩) rfl (by simp)
  | closeOut _ _ _ =>
    exact rests_of_modify found rfl (fun _ => ⟨⟨rfl, rfl, rfl⟩, rfl, rfl, rfl⟩) rfl (by simp)
  | closeTwice _ _ _ =>
    exact rests_of_modify found rfl (fun _ => ⟨⟨rfl, rfl, rfl⟩, rfl, rfl, rfl⟩) rfl (by simp)
  | closeConn _ _ =>
    exact rests_of_modify found rfl (fun _ => ⟨⟨rfl, rfl, rfl⟩, rfl, rfl, rfl⟩) rfl (by simp)
  | expire _ =>
    exact rests_of_modify found rfl (fun _ => ⟨⟨rfl, rfl, rfl⟩, rfl, rfl, rfl⟩) rfl (by simp)

/-- A frame is read by a handler that waits for one. -/
theorem step_frame {msg : RelayMessage} {enqueuedAt now : Int} {wrote : Bool}
    (moved : s.step (.at c (.frame (some msg) enqueuedAt now wrote)) = some s') :
    ∃ cl, s.clients c = some cl ∧ cl.pc = .reading ∧
      s' = s.readFrame c cl msg enqueuedAt now wrote := by
  simp only [Relay.step, Option.bind_eq_some_iff, Relay.stepAt, Option.ite_none_right_eq_some,
    Option.some.injEq] at moved
  obtain ⟨cl, found, reading, same⟩ := moved
  exact ⟨cl, found, reading, same.symm⟩

/-- What `readPump` does with a frame: the submission it records, the handler's
next point. -/
inductive FrameStep (s : Relay) (c : ConnId) (cl : Client) (msg : RelayMessage) (s' : Relay) :
    Prop where
  | ignored (unsubmitted : submits s cl msg = none) (unheard : forwardsTo s msg = none)
      (clients : s'.clients = s.clients) (submissions : s'.submissions = s.submissions)
  | hears (target : ConnId) (unsubmitted : submits s cl msg = none)
      (forwards : forwardsTo s msg = some target)
      (clients : s'.clients = (s.goto c (.forwarding target (statusFrame msg))).clients)
      (submissions : s'.submissions = s.submissions)
  | routes (sub : Submission) (target : ConnId) (env : Envelope) (submitted : submits s cl msg = some sub)
      (stamped : env = { sub.envelope with id := sub.id, senderID := sub.userID, senderDevice := sub.deviceID })
      (clients : s'.clients = (s.goto c (.routing target env msg.clientRef)).clients)
      (submissions : s'.submissions = sub :: s.submissions)
  | queues (sub : Submission) (submitted : submits s cl msg = some sub)
      (clients : s'.clients = (s.goto c (.acking sub.id msg.clientRef)).clients)
      (submissions : s'.submissions = sub :: s.submissions)

theorem submits_unheard {msg : RelayMessage} {sub : Submission} (submitted : submits s cl msg = some sub) :
    forwardsTo s msg = none := by
  unfold submits at submitted
  split at submitted
  · next kind => simp [forwardsTo, kind]
  · cases submitted

/-- `readFrame` moves on as listed. -/
theorem readFrame_step (cl : Client) (msg : RelayMessage) (enqueuedAt now : Int) (wrote : Bool) :
    FrameStep s c cl msg (s.readFrame c cl msg enqueuedAt now wrote) := by
  by_cases send : msg.kind = "send"
  · cases carried : msg.envelope with
    | none =>
      have same : s.readFrame c cl msg enqueuedAt now wrote = s := by
        simp [Relay.readFrame, send, carried]
      rw [same]
      exact .ignored (by simp [submits, send, carried]) (by simp [forwardsTo, send]) rfl rfl
    | some envelope =>
      have submitted : submits s cl msg = some ⟨cl.userID, cl.deviceID, envelope,
          (s.hub.count.stamp (cl.stampSender envelope)).id⟩ := by
        simp [submits, send, carried]
      simp only [Relay.readFrame, send, ↓reduceIte, carried, Relay.routeFrame]
      cases connected : s.hub.conns (cl.stampSender envelope).key with
      | some target =>
        simp only [route_live connected]
        exact .routes _ target _ submitted rfl rfl rfl
      | none =>
        simp only [route_offline connected]
        exact .queues _ submitted rfl rfl
  · have unsubmitted : submits s cl msg = none := by simp [submits, send]
    by_cases push : msg.kind = "register-push"
    · have unheard : forwardsTo s msg = none := by simp [forwardsTo, push]
      simp only [Relay.readFrame, if_neg send, if_pos push]
      split
      · exact .ignored unsubmitted unheard rfl rfl
      · exact .ignored unsubmitted unheard rfl rfl
    · by_cases receipt : msg.kind = "receipt"
      · simp only [Relay.readFrame, if_neg send, if_neg push, if_pos receipt]
        split
        · next valid =>
          have forwards : forwardsTo s msg = s.hub.conns (routeKey msg.targetID msg.targetDevice) :=
            if_pos ⟨receipt, valid⟩
          split
          · next target connected =>
            exact .hears target unsubmitted (forwards.trans connected) rfl rfl
          · next connected => exact .ignored unsubmitted (forwards.trans connected) rfl rfl
        · next invalid =>
          have unheard : forwardsTo s msg = none := if_neg fun forwarded => invalid forwarded.2
          exact .ignored unsubmitted unheard rfl rfl
      · have unheard : forwardsTo s msg = none := if_neg fun forwarded => receipt forwarded.1
        simp only [Relay.readFrame, if_neg send, if_neg push, if_neg receipt]
        exact .ignored unsubmitted unheard rfl rfl

/-- Another connection's handler stays where it is. -/
theorem stays_other {move : Move} (other : d ≠ c) : HandlerStep s d cl (.at c move) cl.pc := by
  refine .stays ?_
  rintro move' same
  cases same
  exact absurd rfl other

/-- A step that changes one record, as far as handlers go. -/
theorem handler_of_modify {f : Client → Client} {move : Move} {clc cl' : Client}
    (found : s.clients d = some cl) (found_c : s.clients c = some clc)
    (clients : s'.clients = (s.modify c f).clients) (found' : s'.clients d = some cl')
    (own : HandlerStep s c clc (.at c move) (f clc).pc) : HandlerStep s d cl (.at c move) cl'.pc := by
  rw [clients, modify_after f found] at found'
  cases found'
  split
  · next same =>
    subst same
    rw [found] at found_c
    cases found_c
    exact own
  · next other => exact stays_other other

/-- A send moves no handler but the one that sends. -/
theorem handler_of_send {target : ConnId} {msg : RelayMessage} {pc : Pc} {move : Move} {s₁ : Relay}
    {clc cl' : Client} (found : s.clients d = some cl) (found_c : s.clients c = some clc)
    (sent : s.send target msg = some s₁) (clients : s'.clients = (s₁.goto c pc).clients)
    (found' : s'.clients d = some cl') (own : HandlerStep s c clc (.at c move) pc) :
    HandlerStep s d cl (.at c move) cl'.pc := by
  obtain ⟨cl₁, found₁, _, pc₁, _⟩ := send_found sent found
  rw [clients, Relay.goto, modify_after _ found₁] at found'
  cases found'
  split
  · next same =>
    subst same
    rw [found] at found_c
    cases found_c
    exact own
  · next other =>
    rw [pc₁]
    exact stays_other other

/-- Every handler has moved on as listed. -/
theorem step_handler (wired : Wired s) {cl' : Client} (moved : s.step a = some s')
    (found : s.clients d = some cl) (found' : s'.clients d = some cl') :
    HandlerStep s d cl a cl'.pc := by
  have by_frame {c : ConnId} {clc : Client} {msg : RelayMessage} {enqueuedAt now : Int} {wrote : Bool}
      (found_c : s.clients c = some clc) (reading : clc.pc = .reading)
      (step : FrameStep s c clc msg s') :
      HandlerStep s d cl (.at c (.frame (some msg) enqueuedAt now wrote)) cl'.pc := by
    cases step with
    | ignored _ _ clients _ =>
      rw [clients, found] at found'
      cases found'
      exact .stays fun move same => by cases same; rfl
    | hears target _ forwards clients _ =>
      exact handler_of_modify found found_c clients found' (.hears reading forwards)
    | routes sub target env submitted stamped clients _ =>
      exact handler_of_modify found found_c clients found'
        (.routes reading submitted (by rw [stamped]))
    | queues sub submitted clients _ =>
      exact handler_of_modify found found_c clients found' (.queues reading submitted)
  cases step_moves moved with
  | connect userID deviceID =>
    rw [connect_ne, found] at found'
    · cases found'
      exact .stays fun move same => by cases same
    · rintro rfl
      rw [wired.fresh s.nextConn (Nat.le_refl _)] at found
      cases found
  | register found_c pc =>
    exact handler_of_modify found found_c rfl found'
      (.moves (by rw [pc]; trivial) trivial fun _ => .inl trivial)
  | flush found_c pc sent =>
    exact handler_of_send found found_c sent rfl found'
      (.moves (by rw [pc]; trivial) trivial fun _ => .inl trivial)
  | flushPanic found_c pc panicked =>
    exact absurd panicked (wired.own_send found_c (by rw [pc]; simp [Closed]))
  | startWriter found_c pc =>
    exact handler_of_modify found found_c rfl found'
      (.moves (by rw [pc]; trivial) trivial fun _ => .inl trivial)
  | take found_c _ _ =>
    exact handler_of_modify found found_c rfl found' (.stays fun move same => by cases same; rfl)
  | write found_c _ =>
    exact handler_of_modify found found_c rfl found' (.stays fun move same => by cases same; rfl)
  | writeError found_c _ =>
    exact handler_of_modify found found_c rfl found' (.stays fun move same => by cases same; rfl)
  | drained found_c _ _ _ =>
    exact handler_of_modify found found_c rfl found' (.stays fun move same => by cases same; rfl)
  | ignore _ _ =>
    rw [found] at found'
    cases found'
    exact .stays fun move same => by cases same; rfl
  | registerPush _ _ =>
    rw [show s.clients d = _ from found] at found'
    cases found'
    exact .stays fun move same => by cases same; rfl
  | routeLive _ _ _ _ =>
    obtain ⟨clc, found_c, reading, result⟩ := step_frame moved
    exact by_frame found_c reading (result ▸ readFrame_step clc _ _ _ _)
  | routeOffline _ _ _ _ =>
    obtain ⟨clc, found_c, reading, result⟩ := step_frame moved
    exact by_frame found_c reading (result ▸ readFrame_step clc _ _ _ _)
  | receipt _ _ _ _ =>
    obtain ⟨clc, found_c, reading, result⟩ := step_frame moved
    exact by_frame found_c reading (result ▸ readFrame_step clc _ _ _ _)
  | sendLive found_c pc sent =>
    exact handler_of_send found found_c sent rfl found' (.accepts pc)
  | sendLivePanic found_c pc panicked =>
    exact handler_of_modify found found_c rfl found' (.panics (.live found_c pc)
      fun clt known => (send_panics known).mp panicked)
  | ack found_c pc _ sent => exact handler_of_send found found_c sent rfl found' (.acks pc)
  | ackPanic found_c pc panicked =>
    exact absurd panicked (wired.own_send found_c (by rw [pc]; simp [Closed]))
  | forward found_c pc sent => exact handler_of_send found found_c sent rfl found' (.forwarded pc)
  | forwardPanic found_c pc panicked =>
    exact handler_of_modify found found_c rfl found' (.panics (.forward found_c pc)
      fun clt known => (send_panics known).mp panicked)
  | readError found_c pc =>
    exact handler_of_modify found found_c rfl found'
      (.moves (by rw [pc]; trivial) trivial fun _ => .inr rfl)
  | unregister found_c pc =>
    exact handler_of_modify found found_c rfl found'
      (.moves (by rw [pc]; trivial) trivial (by rw [pc]; exact False.elim))
  | closeOut found_c pc _ =>
    exact handler_of_modify found found_c rfl found'
      (.moves (by rw [pc]; trivial) trivial (by rw [pc]; exact False.elim))
  | closeTwice found_c pc _ =>
    exact handler_of_modify found found_c rfl found'
      (.moves (by rw [pc]; trivial) trivial (by rw [pc]; exact False.elim))
  | closeConn found_c pc =>
    exact handler_of_modify found found_c rfl found'
      (.moves (by rw [pc]; trivial) trivial (by rw [pc]; exact False.elim))
  | expire found_c =>
    exact handler_of_modify found found_c rfl found' (.stays fun move same => by cases same; rfl)

/-- A frame adds the submission it makes, if it makes one. -/
theorem FrameStep.submissions {msg : RelayMessage} (step : FrameStep s c cl msg s') :
    s'.submissions = (submits s cl msg).toList ++ s.submissions := by
  cases step with
  | ignored unsubmitted _ _ same => rw [unsubmitted, same]; rfl
  | hears _ unsubmitted _ _ same => rw [unsubmitted, same]; rfl
  | routes _ _ _ submitted _ _ added => rw [submitted, added]; rfl
  | queues _ submitted _ added => rw [submitted, added]; rfl

/-- Only frames add submissions. -/
theorem step_submissions (moved : s.step a = some s') :
    s'.submissions = s.submissions ∨ ∃ c cl msg sub enqueuedAt now wrote,
      a = .at c (.frame (some msg) enqueuedAt now wrote) ∧ s.clients c = some cl ∧
        submits s cl msg = some sub ∧ s'.submissions = sub :: s.submissions := by
  have by_frame {c : ConnId} {msg : RelayMessage} {enqueuedAt now : Int} {wrote : Bool}
      (frame : s.step (.at c (.frame (some msg) enqueuedAt now wrote)) = some s') :
      s'.submissions = s.submissions ∨ ∃ cl sub, s.clients c = some cl ∧
        submits s cl msg = some sub ∧ s'.submissions = sub :: s.submissions := by
    obtain ⟨cl, found, _, result⟩ := step_frame frame
    have added := (readFrame_step (s := s) (c := c) cl msg enqueuedAt now wrote).submissions
    rw [← result] at added
    cases submitted : submits s cl msg with
    | none =>
      rw [submitted] at added
      exact .inl added
    | some sub =>
      rw [submitted] at added
      exact .inr ⟨cl, sub, found, submitted, added⟩
  cases step_moves moved with
  | routeLive _ _ _ _ =>
    refine (by_frame moved).imp id ?_
    rintro ⟨cl, sub, found, submitted, added⟩
    exact ⟨_, cl, _, sub, _, _, _, rfl, found, submitted, added⟩
  | routeOffline _ _ _ _ =>
    refine (by_frame moved).imp id ?_
    rintro ⟨cl, sub, found, submitted, added⟩
    exact ⟨_, cl, _, sub, _, _, _, rfl, found, submitted, added⟩
  | flush _ _ sent => exact .inl (send_frame sent).2.2.2.1
  | sendLive _ _ sent => exact .inl (send_frame sent).2.2.2.1
  | ack _ _ _ sent => exact .inl (send_frame sent).2.2.2.1
  | forward _ _ sent => exact .inl (send_frame sent).2.2.2.1
  | _ => exact .inl rfl

/-- A connection that was not there before a step is new. -/
theorem step_new {cl' : Client} (moved : s.step a = some s') (absent : s.clients d = none)
    (found' : s'.clients d = some cl') :
    ∃ userID deviceID, a = .connect userID deviceID ∧ cl' = newClient userID deviceID := by
  have gone {c : ConnId} {f : Client → Client} (clients : s'.clients = (s.modify c f).clients) :
      False := by
    rw [clients, modify_clients] at found'
    split at found'
    · next own =>
      rw [← own, absent] at found'
      cases found'
    · rw [absent] at found'
      cases found'
  have gone_sent {c target : ConnId} {msg : RelayMessage} {pc : Pc} {s₁ : Relay}
      (sent : s.send target msg = some s₁) (clients : s'.clients = (s₁.goto c pc).clients) :
      False := by
    obtain ⟨clt, _, _, ⟨_, rfl⟩ | ⟨_, rfl⟩⟩ := send_cases sent
    · have still : (s.modify target (·.accept msg)).clients d = none := by
        rw [modify_clients]
        split
        · next own => rw [← own, absent]; rfl
        · exact absent
      rw [clients, Relay.goto, modify_clients] at found'
      split at found'
      · next own =>
        rw [← own, still] at found'
        cases found'
      · rw [still] at found'
        cases found'
    · exact gone clients
  cases step_moves moved with
  | connect userID deviceID =>
    rcases connect_found found' with rfl | before
    · exact ⟨userID, deviceID, rfl, rfl⟩
    · rw [absent] at before
      cases before
  | flush _ _ sent => exact (gone_sent sent rfl).elim
  | sendLive _ _ sent => exact (gone_sent sent rfl).elim
  | ack _ _ _ sent => exact (gone_sent sent rfl).elim
  | forward _ _ sent => exact (gone_sent sent rfl).elim
  | ignore _ _ =>
    rw [absent] at found'
    cases found'
  | registerPush _ _ =>
    rw [show s.clients d = _ from absent] at found'
    cases found'
  | _ => exact (gone rfl).elim

/-- A connection after a step is new, or has moved on as listed. -/
theorem step_client (wired : Wired s) {cl' : Client} (moved : s.step a = some s')
    (found' : s'.clients d = some cl') :
    (∃ userID deviceID, cl' = newClient userID deviceID) ∨
      ∃ cl, s.clients d = some cl ∧ Same cl cl' ∧ ChannelStep s a d cl cl' ∧
        HandlerStep s d cl a cl'.pc := by
  cases found : s.clients d with
  | none =>
    obtain ⟨userID, deviceID, _, new⟩ := step_new moved found found'
    exact .inl ⟨userID, deviceID, new⟩
  | some cl =>
    obtain ⟨cl₁, found₁, same, channel⟩ := step_channel wired moved found
    rw [found'] at found₁
    cases found₁
    exact .inr ⟨cl, rfl, same, channel, step_handler wired moved found found'⟩

end Hwfa.RelayFrames
