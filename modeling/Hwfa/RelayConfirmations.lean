import Hwfa.RelayAccounting
import Hwfa.RelayReceipts

/-!
Whether the sender's client learns what its recipients have confirmed.

The sender is connected by one socket that stays up and whose buffer never
overflows; everything else about the run is free.  `readPump` puts the deliver
frame on the recipient's channel before it puts the ack on the sender's, so a
receipt can reach the sender's channel first; `handleStatus` then finds no name
for the envelope and drops the status.  `AckFirst` excludes exactly this order.
-/

namespace Hwfa.RelayConfirmations

open Hwfa.Machines Hwfa.Maps Hwfa.RelayEnvelope Hwfa.RelayHub Hwfa.RelayProcess
open Hwfa.RelayWiring Hwfa.RelayAddressing Hwfa.RelayAccounting Hwfa.RelayFrames
open Hwfa.RelayReceipts

/-! ## The runs -/

/-- The frame a handler's next send carries, and the connection it goes to. -/
def sending (s : Relay) (c : ConnId) (move : Move) : Option (ConnId × RelayMessage) :=
  (s.clients c).bind fun cl =>
    match move, cl.pc with
    | .flush, .flushing (qe :: _) => some (c, deliver qe.env)
    | .sendLive, .routing target env _ => some (target, deliver env)
    | .ack acceptedAt, .acking id clientRef => some (c, ackFrame id clientRef acceptedAt)
    | .forward, .forwarding target msg => some (target, msg)
    | _, _ => none

theorem sending_of_sends {s : Relay} {c target : ConnId} {move : Move} {msg : RelayMessage}
    (sends : Sends s (.at c move) target msg) : sending s c move = some (target, msg) := by
  cases sends with
  | flush found pc => simp [sending, found, pc]
  | live found pc => simp [sending, found, pc]
  | ack found pc => simp [sending, found, pc]
  | forward found pc => simp [sending, found, pc]

/-- The peer has gone away, or the write to it fails. -/
def breaks : Move → Bool
  | .readError | .write false => true
  | _ => false

instance (w : World) (c : ConnId) : Decidable (Mine w c) := inferInstanceAs (Decidable (_ = true))

/-- A send finds room in the sender's channel, and the sender's handler finds the
channels it sends to open. -/
def GoesThrough (w : World) (c : ConnId) (move : Move) : Prop :=
  ∀ sent ∈ sending w.relay c move, ∀ cl ∈ w.relay.clients sent.1,
    (Mine w sent.1 → cl.out.length < outCapacity) ∧ (Mine w c → cl.outClosed = false)

instance (w : World) (c : ConnId) (move : Move) : Decidable (GoesThrough w c move) := by
  unfold GoesThrough
  infer_instance

/-- The sender stays connected by its one socket, and no buffer of it overflows. -/
def Connected (w : World) : Act → Prop
  | .relay (.restart ..) => False
  | .relay (.act (.connect ..)) => True
  | .relay (.act (.at c move)) => (Mine w c → breaks move = false) ∧ GoesThrough w c move
  | .dial .. => w.nextSocket = 0
  | .handle _ => True

instance (w : World) : (act : Act) → Decidable (Connected w act)
  | .relay (.restart ..) => inferInstanceAs (Decidable False)
  | .relay (.act (.connect ..)) => inferInstanceAs (Decidable True)
  | .relay (.act (.at c move)) =>
    inferInstanceAs (Decidable ((Mine w c → breaks move = false) ∧ GoesThrough w c move))
  | .dial .. => inferInstanceAs (Decidable (w.nextSocket = 0))
  | .handle _ => inferInstanceAs (Decidable True)

/-- The sender stays connected, and no envelope gets the number of an earlier one. -/
def Undisturbed (w : World) (act : Act) : Prop := Connected w act ∧ Fresh w act

instance (w : World) (act : Act) : Decidable (Undisturbed w act) :=
  inferInstanceAs (Decidable (_ ∧ _))

/-- The handler has yet to put the ack of this envelope on its channel. -/
def Owes : Pc → String → Bool
  | .routing _ env _, id => env.id = id
  | .acking id' _, id => id' = id
  | _, _ => false

/-- The connection whose handler forwards a status in this step. -/
def forwarder : Act → Option ConnId
  | .relay (.act (.at c .forward)) => some c
  | _ => none

/-- A status goes to the sender when the ack of its envelope already has. -/
def AckFirst (w : World) (act : Act) : Prop :=
  ∀ c ∈ forwarder act, ∀ sent ∈ sending w.relay c .forward, ∀ cl ∈ w.relay.clients sent.1,
    Mine w sent.1 → Owes cl.pc sent.2.envelopeID = false

instance (w : World) (act : Act) : Decidable (AckFirst w act) := by
  unfold AckFirst
  infer_instance

/-- The condition, checked before every step. -/
def Orderly (w : World) (act : Act) : Prop := Undisturbed w act ∧ AckFirst w act

instance (w : World) (act : Act) : Decidable (Orderly w act) :=
  inferInstanceAs (Decidable (_ ∧ _))

/-! ## What is on its way -/

/-- The frames on their way to the sender, in the order it will handle them. -/
def stream (w : World) (socket : Nat) (cl : Client) : List RelayMessage :=
  w.arriving socket ++ unwritten cl

/-- The sender knows the envelope. -/
def Known (w : World) (id clientRef : String) : Prop :=
  w.sender.envelopeToRef.lookup id = some clientRef

/-- The ack of the envelope is among the frames. -/
def Acked (frames : List RelayMessage) (id clientRef : String) : Prop :=
  ∃ ack ∈ frames, ack.kind = "ack" ∧ ack.envelopeID = id ∧ ack.clientRef = clientRef

/-- The status is among the frames, behind the ack if that is still needed. -/
def Behind (known : Prop) (frames : List RelayMessage) (id clientRef status : String) : Prop :=
  ∃ before msg after, frames = before ++ msg :: after ∧ msg.kind = "status" ∧
    msg.envelopeID = id ∧ msg.status = status ∧ (known ∨ Acked before id clientRef)

/-- The handler will put this ack on its channel. -/
def OwesAck : Pc → String → String → Prop
  | .routing _ env ref, id, clientRef => env.id = id ∧ ref = clientRef
  | .acking id' ref, id, clientRef => id' = id ∧ ref = clientRef
  | _, _, _ => False

/-- A device that had been delivered the envelope has confirmed it to the sender. -/
def Receipted (w : World) (id status : String) : Prop :=
  ∃ r ∈ w.receipts, r.envelopeID = id ∧ r.status = status ∧ r.received = true ∧ r.forwarded = true

/-- A handler is about to tell the sender. -/
def Forwarding (w : World) (id status : String) : Prop :=
  ∃ d cl target msg, w.relay.clients d = some cl ∧ cl.pc = .forwarding target msg ∧
    Mine w target ∧ msg.envelopeID = id ∧ msg.status = status

/-- The sender is about to know the envelope. -/
def Coming (w : World) (id clientRef : String) : Prop :=
  ∃ c socket cl, w.sockets c = some socket ∧ w.relay.clients c = some cl ∧
    (OwesAck cl.pc id clientRef ∨ Acked (stream w socket cl) id clientRef)

/-- The status is about to be handled by the sender, who will know what it is
about. -/
def Underway (w : World) (id clientRef status : String) : Prop :=
  ∃ c socket cl, w.sockets c = some socket ∧ w.relay.clients c = some cl ∧
    Behind (Known w id clientRef) (stream w socket cl) id clientRef status

structure Converging (w : World) : Prop where
  single : ∀ c d, Mine w c → Mine w d → c = d
  dialled : ∀ c, Mine w c → w.nextSocket ≠ 0
  idle : w.nextSocket = 0 → w.named = []
  line : ∀ c, Mine w c → ∃ cl, w.relay.clients c = some cl ∧ Running cl.pc ∧ cl.writer ≠ .returned
  heard : ∀ socket, ∀ msg ∈ w.arriving socket, ∃ c, w.sockets c = some socket
  names : ∀ id ref ref', (id, ref) ∈ w.named → (id, ref') ∈ w.named → ref = ref'
  received : ∀ r ∈ w.receipts, r.received = true →
    ∃ sub ∈ w.relay.submissions, sub.id = r.envelopeID
  acks : ∀ id clientRef, (id, clientRef) ∈ w.named → clientRef ≠ "" →
    Known w id clientRef ∨ Coming w id clientRef
  confirmations : ∀ id clientRef status, (id, clientRef) ∈ w.named → clientRef ≠ "" →
    Receipted w id status →
      (clientRef, status) ∈ w.sender.emitted ∨ Forwarding w id status ∨ Underway w id clientRef status

variable {w w' : World} {c : ConnId} {cl : Client} {msg : RelayMessage} {id status : String}
variable {s : Relay} {a : Action} {frames : List RelayMessage} {clientRef : String}

theorem Acked.append (acked : Acked frames id clientRef) (more : List RelayMessage) :
    Acked (frames ++ more) id clientRef := by
  obtain ⟨ack, member, same⟩ := acked
  exact ⟨ack, List.mem_append_left _ member, same⟩

theorem Behind.append {known : Prop} (behind : Behind known frames id clientRef status)
    (more : List RelayMessage) : Behind known (frames ++ more) id clientRef status := by
  obtain ⟨before, msg, after, rfl, same⟩ := behind
  exact ⟨before, msg, after ++ more, by simp, same⟩

theorem Behind.mono {known known' : Prop} (behind : Behind known frames id clientRef status)
    (stays : known → known') : Behind known' frames id clientRef status := by
  obtain ⟨before, msg, after, same, kind, named, stated, ready⟩ := behind
  exact ⟨before, msg, after, same, kind, named, stated, ready.imp stays fun acked => acked⟩

/-- An ack that is owed to the sender is owed for its envelope. -/
theorem owes_of_owesAck {pc : Pc} (owes : OwesAck pc id clientRef) : Owes pc id = true := by
  cases pc with
  | routing target env ref => exact decide_eq_true owes.1
  | acking id' ref => exact decide_eq_true owes.1
  | _ => exact owes.elim

/-! ## The sender's line over a step of the relay -/

/-- Only a write of its own connection puts a frame on the sender's socket. -/
theorem watch_still {socket : Nat} (converging : Converging w) (mine : w.sockets c = some socket)
    (unwritten : a ≠ .at c (.write true)) :
    (w.watch (.act a)).arriving socket = w.arriving socket := by
  unfold World.watch
  split
  · next d same =>
    cases same
    split
    · split
      · have other : w.sockets d = none := by
          by_contra other
          have same : d = c := converging.single d c (Option.isSome_iff_ne_none.mpr other)
            (by simp [Mine, mine])
          exact unwritten (by rw [same])
        simp only [World.wrote, other]
      · rfl
    · rfl
  · split
    · rfl
    · rfl
  · rfl
  · next same => cases same

theorem watch_wrote {socket : Nat} (mine : w.sockets c = some socket)
    (found : w.relay.clients c = some cl) (writing : cl.writer = .writing msg) :
    (w.watch (.act (.at c (.write true)))).arriving socket = w.arriving socket ++ [msg] := by
  simp [World.watch, found, writing, World.wrote, mine]

/-- What a step of the relay does to the frames on their way to the sender: it
adds what it sends to the sender's channel, and loses nothing. -/
theorem stream_act {socket : Nat} {cl' : Client} (wired : Wired w.relay)
    (converging : Converging w) (connected : Connected w (.relay (.act a)))
    (mine : w.sockets c = some socket) (found : w.relay.clients c = some cl)
    (channel : ChannelStep w.relay a c cl cl') (s : Relay) :
    cl'.writer ≠ .returned ∧
    ((∀ msg, ¬ Sends w.relay a c msg) ∧
        stream { w.watch (.act a) with relay := s } socket cl' = stream w socket cl ∨
      ∃ msg, Sends w.relay a c msg ∧
        stream { w.watch (.act a) with relay := s } socket cl' = stream w socket cl ++ [msg]) := by
  have own : Mine w c := by simp [Mine, mine]
  obtain ⟨known, found', running, writing⟩ := converging.line c own
  rw [found] at found'
  cases found'
  have opened := wired.opened found (not_closed_of_running running)
  have room (msg : RelayMessage) (sends : Sends w.relay a c msg) : cl.out.length < outCapacity := by
    obtain ⟨d, move, rfl⟩ := sends.taken
    exact (connected.2 (c, msg) (sending_of_sends sends) cl found).1 own
  have quiet (other : ∀ d move, a = .at d move → silent move = true) (msg : RelayMessage) :
      ¬ Sends w.relay a c msg := by
    intro sends
    obtain ⟨d, move, rfl⟩ := sends.taken
    exact no_send (other d move rfl) msg sends
  cases channel with
  | rests out _ writer refused still =>
    refine ⟨writer ▸ writing, .inl ⟨?_, ?_⟩⟩
    · intro msg sends
      rcases refused msg sends with full | closed
      · have := room msg sends
        omega
      · rw [opened] at closed
        cases closed
    · simp only [stream, unwritten, out, writer, watch_still converging mine still]
  | gains msg sends out _ writer =>
    refine ⟨writer ▸ writing, .inr ⟨msg, sends, ?_⟩⟩
    simp only [stream, unwritten, out, writer, watch_still converging mine sends.unwritten,
      List.append_assoc]
  | starts step out _ unstarted writer =>
    subst step
    refine ⟨by simp [writer], .inl ⟨quiet fun _ _ same => by cases same; rfl, ?_⟩⟩
    simp only [stream, unwritten, out, writer, unstarted, inHand,
      watch_still converging mine (by simp : Action.at c .startWriter ≠ .at c (.write true))]
  | takes msg step out _ ranging writer =>
    subst step
    refine ⟨by simp [writer], .inl ⟨quiet fun _ _ same => by cases same; rfl, ?_⟩⟩
    simp only [stream, unwritten, out, writer, ranging, inHand, List.nil_append, List.cons_append,
      watch_still converging mine (by simp : Action.at c .take ≠ .at c (.write true))]
  | writes msg step out _ hand writer =>
    subst step
    refine ⟨by simp [writer], .inl ⟨quiet fun _ _ same => by cases same; rfl, ?_⟩⟩
    simp only [stream, unwritten, out, writer, hand, inHand, watch_wrote mine found hand,
      List.append_assoc, List.nil_append]
  | fails step _ _ _ =>
    subst step
    have broken := connected.1 own
    cases broken
  | drained _ _ _ _ closed _ _ =>
    rw [opened] at closed
    cases closed

/-- The sender's handler does not begin to leave. -/
theorem handler_act {pc : Pc} (wired : Wired w.relay) (connected : Connected w (.relay (.act a)))
    (own : Mine w c) (running : Running cl.pc)
    (handler : HandlerStep w.relay c cl a pc) : Running pc := by
  cases handler with
  | stays _ => exact running
  | routes _ _ _ => trivial
  | queues _ _ => trivial
  | hears _ _ => trivial
  | accepts _ => trivial
  | acks _ => trivial
  | forwarded _ => trivial
  | panics sends closed =>
    have target : ∃ clt, w.relay.clients _ = some clt := sends.target_known wired
    obtain ⟨clt, known⟩ := target
    have opened := (connected.2 _ (sending_of_sends sends) clt known).2 own
    rw [closed clt known] at opened
    cases opened
  | moves _ _ onward =>
    refine (onward running).resolve_right ?_
    rintro rfl
    have broken := connected.1 own
    cases broken

/-- The sender's connection after a step of the relay. -/
theorem line_act {socket : Nat} (wired : Wired w.relay) (converging : Converging w)
    (connected : Connected w (.relay (.act a))) (moved : w.relay.step a = some s)
    (mine : w.sockets c = some socket) (found : w.relay.clients c = some cl) :
    ∃ cl', s.clients c = some cl' ∧ Running cl'.pc ∧ cl'.writer ≠ .returned ∧
      HandlerStep w.relay c cl a cl'.pc ∧
      ((∀ msg, ¬ Sends w.relay a c msg) ∧
          stream { w.watch (.act a) with relay := s } socket cl' = stream w socket cl ∨
        ∃ msg, Sends w.relay a c msg ∧
          stream { w.watch (.act a) with relay := s } socket cl' = stream w socket cl ++ [msg]) := by
  obtain ⟨cl', found', _, channel⟩ := step_channel wired moved found
  have handler := step_handler wired moved found found'
  have own : Mine w c := by simp [Mine, mine]
  obtain ⟨known, same, running, _⟩ := converging.line c own
  rw [found] at same
  cases same
  obtain ⟨writing, flows⟩ := stream_act wired converging connected mine found channel s
  exact ⟨cl', found', handler_act wired connected own running handler, writing, handler, flows⟩

/-- An ack that is on its way, or owed, still is after a step of the relay. -/
theorem coming_act (wired : Wired w.relay) (converging : Converging w)
    (connected : Connected w (.relay (.act a))) (moved : w.relay.step a = some s)
    (coming : Coming w id clientRef) :
    Coming { w.watch (.act a) with relay := s } id clientRef := by
  obtain ⟨c, socket, cl, mine, found, coming⟩ := coming
  obtain ⟨cl', found', running, _, handler, flows⟩ :=
    line_act wired converging connected moved mine found
  have mine' : (World.sockets { w.watch (.act a) with relay := s }) c = some socket := by
    rw [← mine]
    exact congrFun (watch_act w a).2.1 c
  refine ⟨c, socket, cl', mine', found', ?_⟩
  rcases coming with owes | acked
  · generalize cl'.pc = pc' at handler running ⊢
    cases handler with
    | stays _ => exact .inl owes
    | routes reading _ _ =>
      rw [reading] at owes
      exact owes.elim
    | queues reading _ =>
      rw [reading] at owes
      exact owes.elim
    | hears reading _ =>
      rw [reading] at owes
      exact owes.elim
    | accepts routing =>
      rw [routing] at owes
      exact .inl owes
    | acks acking =>
      rw [acking] at owes
      rcases flows with ⟨silence, _⟩ | ⟨msg, sends, flows⟩
      · exact absurd (.ack found acking) (silence _)
      · obtain ⟨_, rfl⟩ := sends.unique (.ack found acking)
        refine .inr ?_
        rw [flows]
        exact ⟨_, List.mem_append_right _ (List.mem_singleton_self _), rfl, owes⟩
    | forwarded forwarding =>
      rw [forwarding] at owes
      exact owes.elim
    | panics _ _ => exact running.elim
    | moves before _ _ =>
      cases pc : cl.pc with
      | routing _ _ _ =>
        rw [pc] at before
        exact before.elim
      | acking _ _ =>
        rw [pc] at before
        exact before.elim
      | _ =>
        rw [pc] at owes
        exact owes.elim
  · rcases flows with ⟨_, flows⟩ | ⟨msg, _, flows⟩
    · exact .inr (flows ▸ acked)
    · exact .inr (flows ▸ acked.append [msg])

/-- A status that is on its way still is after a step of the relay. -/
theorem underway_act {status : String} (wired : Wired w.relay) (converging : Converging w)
    (connected : Connected w (.relay (.act a))) (moved : w.relay.step a = some s)
    (underway : Underway w id clientRef status) :
    Underway { w.watch (.act a) with relay := s } id clientRef status := by
  obtain ⟨c, socket, cl, mine, found, behind⟩ := underway
  obtain ⟨cl', found', _, _, _, flows⟩ := line_act wired converging connected moved mine found
  obtain ⟨-, sockets, -, sender⟩ := watch_act w a
  refine ⟨c, socket, cl', (congrFun sockets c).trans mine, found', ?_⟩
  have stays : Known w id clientRef →
      Known { w.watch (.act a) with relay := s } id clientRef := by
    unfold Known
    rw [show (World.sender { w.watch (.act a) with relay := s }) = w.sender from sender]
    exact fun known => known
  rcases flows with ⟨_, flows⟩ | ⟨msg, _, flows⟩
  · rw [flows]
    exact behind.mono stays
  · rw [flows]
    exact (behind.append [msg]).mono stays

/-- A handler in `forwardStatus` sends to nobody but the target it captured. -/
theorem sends_of_forwarding {d target target' : ConnId} {move : Move} {msg' : RelayMessage}
    (found : s.clients d = some cl) (pc : cl.pc = .forwarding target msg)
    (sends : Sends s (.at d move) target' msg') : target' = target := by
  cases sends with
  | flush found' pc' => simp_all
  | live found' pc' => simp_all
  | ack found' pc' => simp_all
  | forward found' pc' => simp_all

/-- A status that is forwarded to the sender is put behind the ack of its
envelope. -/
theorem forwarding_act {status : String} (wired : Wired w.relay) (sound : Sound w.relay)
    (converging : Converging w) (orderly : Orderly w (.relay (.act a)))
    (moved : w.relay.step a = some s) (named : (id, clientRef) ∈ w.named) (ref : clientRef ≠ "")
    (forwarding : Forwarding w id status) :
    Forwarding { w.watch (.act a) with relay := s } id status ∨
      Underway { w.watch (.act a) with relay := s } id clientRef status := by
  obtain ⟨d, cl, target, msg, found, pc, own, same, stated⟩ := forwarding
  obtain ⟨-, sockets, -, sender⟩ := watch_act w a
  obtain ⟨cl', found', _, _⟩ := step_channel wired moved found
  have own' : Mine { w.watch (.act a) with relay := s } target :=
    mine_of_sockets (congrFun sockets target).symm own
  obtain ⟨socket, mine⟩ := Option.isSome_iff_exists.mp own
  obtain ⟨clt, target_found, running, _⟩ := converging.line target own
  have handler := step_handler wired moved found found'
  generalize here : cl'.pc = pc' at handler
  cases handler with
  | stays _ => exact .inl ⟨d, cl', target, msg, found', here.trans pc, own', same, stated⟩
  | routes reading _ _ =>
    rw [pc] at reading
    cases reading
  | queues reading _ =>
    rw [pc] at reading
    cases reading
  | hears reading _ =>
    rw [pc] at reading
    cases reading
  | accepts routing =>
    rw [pc] at routing
    cases routing
  | acks acking =>
    rw [pc] at acking
    cases acking
  | forwarded _ =>
    -- the one step at which the order of ack and status is decided
    have sends : Sends w.relay (.at d .forward) target msg := .forward found pc
    obtain ⟨clt', target_found', _, _, _, flows⟩ :=
      line_act wired converging orderly.1.1 moved mine target_found
    rcases flows with ⟨silence, _⟩ | ⟨msg', sends', flows⟩
    · exact absurd sends (silence _)
    · obtain ⟨_, rfl⟩ := sends'.unique sends
      refine .inr ⟨target, socket, clt', (congrFun sockets target).trans mine, target_found', ?_⟩
      rw [flows]
      refine ⟨_, _, [], rfl, forwarding_status sound d cl target _ found pc, same, stated, ?_⟩
      rcases converging.acks id clientRef named ref with known | coming
      · exact .inl (by rwa [Known, show (World.sender _) = w.sender from sender])
      · obtain ⟨c, socket', cl₀, mine₀, found₀, coming⟩ := coming
        obtain rfl := converging.single c target (by simp [Mine, mine₀]) own
        rw [mine] at mine₀
        cases mine₀
        rw [target_found] at found₀
        cases found₀
        rcases coming with owes | acked
        · have free := orderly.2 d rfl (c, _) (sending_of_sends sends) clt target_found own
          rw [same, owes_of_owesAck owes] at free
          cases free
        · exact .inr acked
  | panics sends closed =>
    obtain rfl := sends_of_forwarding found pc sends
    have shut := closed _ target_found
    rw [wired.opened target_found (not_closed_of_running running)] at shut
    cases shut
  | moves before _ _ =>
    rw [pc] at before
    exact before.elim

/-- A receipt of the sender's recipient that is read is forwarded. -/
theorem hears_act {enqueuedAt now : Int} {wrote : Bool}
    (moved : w.relay.step (.at c (.frame (some msg) enqueuedAt now wrote)) = some s)
    (heard : ((forwardsTo w.relay msg).bind w.sockets).isSome = true) :
    Forwarding { w.watch (.act (.at c (.frame (some msg) enqueuedAt now wrote))) with relay := s }
      msg.envelopeID msg.status := by
  obtain ⟨cl, found, _, result⟩ := step_frame moved
  obtain ⟨socket, heard⟩ := Option.isSome_iff_exists.mp heard
  obtain ⟨target, forwards, mine⟩ := Option.bind_eq_some_iff.mp heard
  have own : Mine { w.watch (.act (.at c (.frame (some msg) enqueuedAt now wrote))) with relay := s }
      target :=
    mine_of_sockets (congrFun (watch_act w _).2.1 target).symm (by simp [Mine, mine])
  have step := readFrame_step (s := w.relay) (c := c) cl msg enqueuedAt now wrote
  rw [← result] at step
  cases step with
  | ignored _ unheard _ _ =>
    rw [unheard] at forwards
    cases forwards
  | hears target' _ forwards' clients _ =>
    rw [forwards] at forwards'
    cases forwards'
    exact ⟨c, _, target, statusFrame msg, (congrFun clients c).trans (modify_self _ found), rfl, own,
      rfl, rfl⟩
  | routes sub _ _ submitted _ _ _ =>
    rw [submits_unheard submitted] at forwards
    cases forwards
  | queues sub submitted _ _ =>
    rw [submits_unheard submitted] at forwards
    cases forwards

/-- A submission of the sender's is owed its ack. -/
theorem owes_act {enqueuedAt now : Int} {wrote : Bool} {sub : Submission}
    (moved : w.relay.step (.at c (.frame (some msg) enqueuedAt now wrote)) = some s)
    (found : w.relay.clients c = some cl) (submitted : submits w.relay cl msg = some sub)
    (own : Mine w c) :
    Coming { w.watch (.act (.at c (.frame (some msg) enqueuedAt now wrote))) with relay := s }
      sub.id msg.clientRef := by
  obtain ⟨cl', found', _, result⟩ := step_frame moved
  rw [found] at found'
  cases found'
  obtain ⟨socket, mine⟩ := Option.isSome_iff_exists.mp own
  have mine' := (congrFun (watch_act w (.at c (.frame (some msg) enqueuedAt now wrote))).2.1 c).trans mine
  have step := readFrame_step (s := w.relay) (c := c) cl msg enqueuedAt now wrote
  rw [← result] at step
  cases step with
  | ignored unsubmitted _ _ _ =>
    rw [submitted] at unsubmitted
    cases unsubmitted
  | hears _ unsubmitted _ _ _ =>
    rw [submitted] at unsubmitted
    cases unsubmitted
  | routes sub' target env submitted' stamped clients _ =>
    rw [submitted] at submitted'
    cases submitted'
    refine ⟨c, socket, _, mine', (congrFun clients c).trans (modify_self _ found), .inl ⟨?_, rfl⟩⟩
    rw [stamped]
  | queues sub' submitted' clients _ =>
    rw [submitted] at submitted'
    cases submitted'
    exact ⟨c, socket, _, mine', (congrFun clients c).trans (modify_self _ found), .inl ⟨rfl, rfl⟩⟩

theorem submits_send {sub : Submission} (submitted : submits s cl msg = some sub) :
    msg.kind = "send" := by
  unfold submits at submitted
  split at submitted
  · assumption
  · cases submitted

/-- A name given now is given to an id that no name had. -/
theorem names_act {ref ref' : String} (answered : Answered w) (converging : Converging w)
    (fresh : Fresh w (.relay (.act a))) (member : (id, ref) ∈ (w.watch (.act a)).named)
    (member' : (id, ref') ∈ (w.watch (.act a)).named) : ref = ref' := by
  have clash {id ref : String} {c : ConnId} {cl : Client} {msg : RelayMessage} {sub : Submission}
      {enqueuedAt now : Int} {wrote : Bool}
      (step : a = .at c (.frame (some msg) enqueuedAt now wrote))
      (found : w.relay.clients c = some cl) (submitted : submits w.relay cl msg = some sub)
      (before : (id, ref) ∈ w.named) : id ≠ sub.id := by
    subst step
    obtain ⟨older, submitted', rfl⟩ := answered.named id ref before
    exact fresh (c, msg) rfl cl found sub submitted older submitted'
  rcases watch_named member with before | ⟨c, cl, msg, sub, _, _, _, step, found, submitted, rfl, rfl, _⟩
  · rcases watch_named member' with before' | ⟨c, cl, msg, sub, _, _, _, step, found, submitted, rfl, _, _⟩
    · exact converging.names id ref ref' before before'
    · exact absurd rfl (clash step found submitted before)
  · rcases watch_named member' with before' | ⟨c', cl', msg', sub', _, _, _, step', _, _, _, rfl, _⟩
    · exact absurd rfl (clash step found submitted before')
    · rw [step] at step'
      cases step'
      rfl

/-- What has been confirmed has been reported, or is on its way. -/
theorem confirmations_act (wired : Wired w.relay) (sound : Sound w.relay)
    (converging : Converging w) (orderly : Orderly w (.relay (.act a)))
    (moved : w.relay.step a = some s) (member : (id, clientRef) ∈ (w.watch (.act a)).named)
    (ref : clientRef ≠ "") (receipted : Receipted { w.watch (.act a) with relay := s } id status) :
    (clientRef, status) ∈ (w.watch (.act a)).sender.emitted ∨
      Forwarding { w.watch (.act a) with relay := s } id status ∨
        Underway { w.watch (.act a) with relay := s } id clientRef status := by
  have connected : Connected w (.relay (.act a)) := orderly.1.1
  have fresh : Fresh w (.relay (.act a)) := orderly.1.2
  obtain ⟨-, -, -, sender⟩ := watch_act w a
  obtain ⟨r, receipt, rfl, rfl, received, forwarded⟩ := receipted
  rw [sender]
  rcases watch_named member with named | ⟨c, cl, msg, sub, _, _, _, rfl, found, submitted, same, _, own⟩
  · rcases watch_receipts receipt with before | ⟨c, cl, msg, _, _, _, rfl, _, _, rfl⟩
    · rcases converging.confirmations _ clientRef _ named ref
        ⟨r, before, rfl, rfl, received, forwarded⟩ with emitted | forwarding | underway
      · exact .inl emitted
      · exact .inr (forwarding_act wired sound converging orderly moved named ref forwarding)
      · exact .inr (.inr (underway_act wired converging connected moved underway))
    · exact .inr (.inl (hears_act moved forwarded))
  · -- nobody can have confirmed an envelope whose id is given now
    rcases watch_receipts receipt with before | ⟨c', cl', msg', _, _, _, step, _, kind, rfl⟩
    · obtain ⟨older, submitted', same'⟩ := converging.received r before received
      exact absurd (same'.trans same) (fresh (c, msg) rfl cl found sub submitted older submitted')
    · cases step
      rw [submits_send submitted] at kind
      exact absurd kind (by decide)

/-- A step of the relay under the condition. -/
theorem act_converging (wired : Wired w.relay) (sound : Sound w.relay) (answered : Answered w)
    (converging : Converging w) (orderly : Orderly w (.relay (.act a)))
    (moved : w.relay.step a = some s) : Converging { w.watch (.act a) with relay := s } := by
  have connected : Connected w (.relay (.act a)) := orderly.1.1
  have fresh : Fresh w (.relay (.act a)) := orderly.1.2
  obtain ⟨-, sockets, nextSocket, sender⟩ := watch_act w a
  have grows := grows_act moved
  have owner (c : ConnId) (mine : Mine { w.watch (.act a) with relay := s } c) : Mine w c :=
    mine_of_sockets (congrFun sockets c) mine
  refine ⟨?_, ?_, ?_, ?_, ?_, ?_, ?_, ?_, ?_⟩
  · exact fun c d mine mine' => converging.single c d (owner c mine) (owner d mine')
  · intro c mine
    rw [show (World.nextSocket _) = w.nextSocket from nextSocket]
    exact converging.dialled c (owner c mine)
  · intro none
    rw [show (World.nextSocket _) = w.nextSocket from nextSocket] at none
    rw [List.eq_nil_iff_forall_not_mem]
    rintro ⟨id, clientRef⟩ member
    rcases watch_named member with before | ⟨c, _, _, _, _, _, _, _, _, _, _, _, own⟩
    · rw [converging.idle none] at before
      cases before
    · exact converging.dialled c own none
  · intro c mine
    obtain ⟨socket, own⟩ := Option.isSome_iff_exists.mp (owner c mine)
    obtain ⟨cl, found, _⟩ := converging.line c (owner c mine)
    obtain ⟨cl', found', running, writing, _⟩ :=
      line_act wired converging connected moved own found
    exact ⟨cl', found', running, writing⟩
  · intro socket msg member
    have same (c : ConnId) (mine : w.sockets c = some socket) :
        (w.watch (.act a)).sockets c = some socket := (congrFun sockets c).trans mine
    rcases watch_arriving member with before | ⟨c, _, _, _, mine⟩
    · obtain ⟨c, mine⟩ := converging.heard socket msg before
      exact ⟨c, same c mine⟩
    · exact ⟨c, same c mine⟩
  · exact fun id ref ref' => names_act answered converging fresh
  · intro r member received
    rcases watch_receipts member with before | ⟨c, cl, msg, _, _, _, _, found, _, rfl⟩
    · obtain ⟨sub, submitted, same⟩ := converging.received r before received
      exact ⟨sub, grows.submissions submitted, same⟩
    · obtain ⟨sub, submitted, same, _⟩ := received_submission answered received
      exact ⟨sub, grows.submissions submitted, same⟩
  · intro id clientRef member ref
    rcases watch_named member with before | ⟨c, cl, msg, sub, _, _, _, rfl, found, submitted, rfl, rfl, own⟩
    · rcases converging.acks id clientRef before ref with known | coming
      · refine .inl ?_
        rwa [Known, show (World.sender _) = w.sender from sender]
      · exact .inr (coming_act wired converging connected moved coming)
    · exact .inr (owes_act moved found submitted own)
  · exact fun id clientRef status => confirmations_act wired sound converging orderly moved

/-! ## The sender's side -/

theorem dial_converging (converging : Converging w) (idle : w.nextSocket = 0) (userID : String)
    (deviceID : Int64) :
    Converging { w with
      relay := w.relay.connect userID deviceID
      sockets := Function.update w.sockets w.relay.nextConn (some w.nextSocket)
      nextSocket := w.nextSocket + 1 } := by
  have unnamed := converging.idle idle
  have only (c : ConnId) (mine : (Function.update w.sockets w.relay.nextConn
      (some w.nextSocket) c).isSome = true) : c = w.relay.nextConn := by
    by_contra other
    rw [Function.update_of_ne other] at mine
    exact converging.dialled c mine idle
  refine ⟨?_, ?_, ?_, ?_, ?_, converging.names, converging.received, ?_, ?_⟩
  · intro c d mine mine'
    rw [only c mine, only d mine']
  · exact fun c _ => Nat.succ_ne_zero _
  · intro none
    cases none
  · intro c mine
    obtain rfl := only c mine
    exact ⟨_, connect_new _ _ _, trivial, by simp [newClient]⟩
  · intro socket msg member
    obtain ⟨c, mine⟩ := converging.heard socket msg member
    exact absurd idle (converging.dialled c (by simp [Mine, mine]))
  · intro id clientRef member
    rw [show (World.named _) = [] from unnamed] at member
    cases member
  · intro id clientRef status member
    rw [show (World.named _) = [] from unnamed] at member
    cases member

/-- A name the sender has been told is not replaced by another. -/
theorem listen_known (answers : Answers w True msg)
    (names : ∀ ref, (id, ref) ∈ w.named → clientRef = ref) (known : Known w id clientRef) :
    (w.sender.listen msg).envelopeToRef.lookup id = some clientRef := by
  unfold Sender.listen
  split
  · exact known
  · split
    · next ack =>
      unfold Sender.handleAck
      split
      · exact known
      · simp only [Sender.emitStatus, FinMap.lookup_insert_apply]
        split
        · next same =>
          subst same
          rw [names _ (answers ack trivial)]
        · exact known
    · split
      · unfold Sender.handleStatus
        split
        · split
          · exact known
          · exact known
        · exact known
      · exact known

/-- What the sender has emitted stays emitted. -/
theorem listen_emitted (sender : Sender) (msg : RelayMessage) :
    sender.emitted ⊆ (sender.listen msg).emitted := by
  unfold Sender.listen
  split
  · exact List.Subset.refl _
  · split
    · unfold Sender.handleAck
      split
      · exact List.Subset.refl _
      · exact List.subset_cons_self _ _
    · split
      · unfold Sender.handleStatus
        split
        · split
          · exact List.Subset.refl _
          · exact List.subset_cons_self _ _
        · exact List.Subset.refl _
      · exact List.Subset.refl _

/-- The sender learns the name from the ack. -/
theorem listen_ack (sender : Sender) (kind : msg.kind = "ack") (ref : msg.clientRef ≠ "") :
    (sender.listen msg).envelopeToRef.lookup msg.envelopeID = some msg.clientRef := by
  simp [Sender.listen, kind, Sender.handleAck, ref, Sender.emitStatus]

/-- The sender reports a status of an envelope it knows. -/
theorem listen_status {sender : Sender} (kind : msg.kind = "status") (ref : clientRef ≠ "")
    (known : sender.envelopeToRef.lookup msg.envelopeID = some clientRef) :
    (clientRef, msg.status) ∈ (sender.listen msg).emitted := by
  simp [Sender.listen, kind, Sender.handleStatus, known, ref, Sender.emitStatus]

/-- The first of the frames is handled: the ack was it, or is still to come. -/
theorem Acked.listen (sender : Sender) (acked : Acked (msg :: frames) id clientRef)
    (ref : clientRef ≠ "") :
    (sender.listen msg).envelopeToRef.lookup id = some clientRef ∨ Acked frames id clientRef := by
  obtain ⟨ack, member, kind, rfl, rfl⟩ := acked
  rcases List.mem_cons.mp member with rfl | behind
  · exact .inl (listen_ack sender kind ref)
  · exact .inr ⟨ack, behind, kind, rfl, rfl⟩

theorem handle_converging {socket : Nat} {rest : List RelayMessage} (answered : Answered w)
    (converging : Converging w) (arrived : w.arriving socket = msg :: rest) :
    Converging { w with
      sender := w.sender.listen msg
      arriving := Function.update w.arriving socket rest } := by
  have answers := answered.arriving socket msg (arrived ▸ List.mem_cons_self)
  obtain ⟨c, mine⟩ := converging.heard socket msg (arrived ▸ List.mem_cons_self)
  -- the socket is the one the sender has, and its frames are the front of the stream
  have sole {d : ConnId} {other : Nat} (mine' : w.sockets d = some other) :
      d = c ∧ other = socket := by
    obtain rfl := converging.single d c (by simp [Mine, mine']) (by simp [Mine, mine])
    rw [mine] at mine'
    cases mine'
    exact ⟨rfl, rfl⟩
  have flows (cl : Client) : stream w socket cl = msg :: (Function.update w.arriving socket rest socket
      ++ unwritten cl) := by
    rw [Function.update_self, stream, arrived, List.cons_append]
  have known {id clientRef : String} (named : (id, clientRef) ∈ w.named)
      (known : Known w id clientRef) :
      (w.sender.listen msg).envelopeToRef.lookup id = some clientRef :=
    listen_known answers (fun ref member => converging.names id clientRef ref named member) known
  refine ⟨converging.single, converging.dialled, converging.idle, converging.line, ?_,
    converging.names, converging.received, ?_, ?_⟩
  · intro socket' msg' member
    by_cases own : socket' = socket
    · subst own
      exact ⟨c, mine⟩
    · rw [show (World.arriving _) socket' = _ from Function.update_of_ne own rest w.arriving] at member
      exact converging.heard socket' msg' member
  · intro id clientRef named ref
    rcases converging.acks id clientRef named ref with before | ⟨d, other, cl, mine', found, coming⟩
    · exact .inl (known named before)
    · obtain ⟨rfl, rfl⟩ := sole mine'
      rcases coming with owes | acked
      · exact .inr ⟨d, other, cl, mine', found, .inl owes⟩
      · rw [flows] at acked
        refine (acked.listen w.sender ref).imp_right ?_
        exact fun behind => ⟨d, other, cl, mine', found, .inr behind⟩
  · intro id clientRef status named ref receipted
    rcases converging.confirmations id clientRef status named ref receipted with
      emitted | forwarding | ⟨d, other, cl, mine', found, before, msg', after, split, kind, same, stated, ready⟩
    · exact .inl (listen_emitted w.sender msg emitted)
    · exact .inr (.inl forwarding)
    · obtain ⟨rfl, rfl⟩ := sole mine'
      rw [flows] at split
      cases before with
      | nil =>
        obtain ⟨rfl, _⟩ := List.cons.inj split
        subst same stated
        refine .inl (listen_status kind ref (ready.resolve_right ?_))
        rintro ⟨ack, member, _⟩
        cases member
      | cons head before =>
        obtain ⟨rfl, behind⟩ := List.cons.inj split
        refine .inr (.inr ⟨d, other, cl, mine', found, before, msg', after, behind, kind, same, stated,
          ?_⟩)
        rcases ready with before | acked
        · exact .inl (known named before)
        · exact acked.listen w.sender ref

theorem step_converging {act : Act} (wired : Wired w.relay) (sound : Sound w.relay)
    (answered : Answered w) (converging : Converging w) (orderly : Orderly w act)
    (moved : world.step w act = some w') : Converging w' := by
  cases act with
  | relay event =>
    obtain ⟨s, stepped, rfl⟩ := Option.map_eq_some_iff.mp moved
    cases event with
    | act a => exact act_converging wired sound answered converging orderly stepped
    | restart pusher readable now => exact orderly.1.1.elim
  | dial userID deviceID =>
    cases moved
    exact dial_converging converging orderly.1.1 userID deviceID
  | handle socket =>
    simp only [world] at moved
    split at moved
    · cases moved
    · next msg rest arrived =>
      cases moved
      exact handle_converging answered converging arrived

theorem started_converging (w : World) (start : world.start w) : Converging w := by
  obtain ⟨relay, ⟨path, pusher, rfl⟩, rfl⟩ := start
  refine ⟨?_, ?_, fun _ => rfl, ?_, ?_, ?_, ?_, ?_, ?_⟩
  · intro c d mine
    cases mine
  · intro c mine
    cases mine
  · intro c mine
    cases mine
  · intro socket msg member
    cases member
  · intro id ref ref' member
    cases member
  · intro r member
    cases member
  · intro id clientRef member
    cases member
  · intro id clientRef status member
    cases member

theorem reached_converging (reached : world.Reached Orderly w) : Converging w := by
  have known (w : World) (reached : world.Reached Orderly w) :
      Wired w.relay ∧ Sound w.relay ∧ Answered w :=
    have answered := reached_answered (reached.weaken fun _ _ orderly => orderly.1.2)
    ⟨(reachable_sound (world_relay reached)).1, (reachable_sound (world_relay reached)).2, answered⟩
  refine reached.invariant_under Converging known started_converging ?_
  rintro w act w' ⟨wired, sound, answered⟩ converging orderly moved
  exact step_converging wired sound answered converging orderly moved

/-! ## Once all frames are consumed -/

/-- The connection a handler at this point is about to send to. -/
def nextTarget (c : ConnId) : Pc → Option ConnId
  | .flushing (_ :: _) | .acking .. => some c
  | .routing target .. | .forwarding target _ => some target
  | _ => none

/-- Nothing is on its way to the sender, and nobody is about to send it anything. -/
def Consumed (w : World) : Prop :=
  ∀ c < w.relay.nextConn, ∀ cl ∈ w.relay.clients c,
    (∀ socket ∈ w.sockets c, stream w socket cl = []) ∧
      ∀ target ∈ nextTarget c cl.pc, ¬ Mine w target

instance (w : World) : Decidable (Consumed w) := by
  unfold Consumed
  infer_instance

/-- The order of `MessageStatus`. -/
def statusRank (status : String) : Nat :=
  if status = "read" then 3
  else if status = "delivered" then 2
  else if status = "sent" then 1
  else 0

def highest (statuses : List String) : Nat := (statuses.map statusRank).foldr max 0

/-- What the devices that were delivered the envelope have confirmed to the
sender while it was connected. -/
def confirmedStatuses (w : World) (id : String) : List String :=
  (w.receipts.filter fun r => r.envelopeID = id ∧ r.received ∧ r.forwarded).map (·.status)

/-- What the sender's client has emitted for a message. -/
def emittedStatuses (w : World) (clientRef : String) : List String :=
  (w.sender.emitted.filter fun e => e.1 = clientRef).map (·.2)

theorem statusRank_le_highest {statuses : List String} (member : status ∈ statuses) :
    statusRank status ≤ highest statuses := by
  induction statuses with
  | nil => cases member
  | cons head rest ih =>
    simp only [highest, List.map_cons, List.foldr_cons]
    rcases List.mem_cons.mp member with rfl | inside
    · exact Nat.le_max_left _ _
    · exact Nat.le_trans (ih inside) (Nat.le_max_right _ _)

theorem highest_le_of_subset {statuses statuses' : List String} (subset : statuses ⊆ statuses') :
    highest statuses ≤ highest statuses' := by
  induction statuses with
  | nil => exact Nat.zero_le _
  | cons head rest ih =>
    simp only [highest, List.map_cons, List.foldr_cons]
    apply Nat.max_le.mpr
    exact ⟨statusRank_le_highest (subset List.mem_cons_self),
      ih fun status member => subset (List.mem_cons_of_mem _ member)⟩

/-- **Delivery status converges.** In every run in which the sender stays
connected without losing a frame, the relay gives no id twice, and no status is
put on the sender's channel before the ack of its envelope: once all frames are
consumed, the highest status emitted for a message is at least the highest one
the recipient has confirmed. -/
theorem confirmations_arrive_behind_their_ack (reached : world.Reached Orderly w)
    (consumed : Consumed w) (named : (id, clientRef) ∈ w.named) (ref : clientRef ≠ "") :
    highest (confirmedStatuses w id) ≤ highest (emittedStatuses w clientRef) := by
  have converging := reached_converging reached
  have within (c : ConnId) (cl : Client) (found : w.relay.clients c = some cl) :
      c < w.relay.nextConn := by
    by_contra beyond
    rw [(reachable_sound (world_relay reached)).1.fresh c (Nat.le_of_not_lt beyond)] at found
    cases found
  apply highest_le_of_subset
  intro status member
  obtain ⟨r, confirmed, rfl⟩ := List.mem_map.mp member
  simp only [List.mem_filter, decide_eq_true_eq] at confirmed
  obtain ⟨receipt, same, received, forwarded⟩ := confirmed
  refine List.mem_map.mpr ⟨(clientRef, r.status), List.mem_filter.mpr ⟨?_, by simp⟩, rfl⟩
  rcases converging.confirmations id clientRef r.status named ref
    ⟨r, receipt, same, rfl, received, forwarded⟩ with
    emitted | ⟨d, cl, target, msg, found, pc, own, _⟩ | ⟨c, socket, cl, mine, found, behind⟩
  · exact emitted
  · exact absurd own ((consumed d (within d cl found) cl found).2 target (by simp [pc, nextTarget]))
  · obtain ⟨before, msg, after, split, _⟩ := behind
    rw [(consumed c (within c cl found) cl found).1 socket mine] at split
    cases before <;> cases split

theorem bobs_receipt_arrives : ∃ w, world.Reached Orderly w ∧ Consumed w ∧
    ("env-1", "m1") ∈ w.named ∧ confirmedStatuses w "env-1" = ["delivered"] ∧
    highest (confirmedStatuses w "env-1") ≤ highest (emittedStatuses w "m1") := by
  let begun : World := { relay := started (newHub "" false) none }
  have observed : (world.checkedRun Orderly begun confirmedByBob).map (fun w =>
      (decide (Consumed w), w.named, confirmedStatuses w "env-1")) =
      some (true, [("env-1", "m1")], ["delivered"]) := by decide +kernel
  have start : world.start begun := ⟨_, ⟨"", false, rfl⟩, rfl⟩
  obtain ⟨w, reached, seen⟩ := Machine.reached_of_observed observed (.start start)
  simp only [Prod.mk.injEq, decide_eq_true_eq] at seen
  obtain ⟨consumed, named, confirmed⟩ := seen
  have member : ("env-1", "m1") ∈ w.named := by rw [named]; exact List.mem_cons_self
  exact ⟨w, reached, consumed, member, confirmed,
    confirmations_arrive_behind_their_ack reached consumed member (by decide)⟩

/-- bob confirms alice's message before her handler has put the ack on her channel. -/
def confirmedTooSoon : List Act :=
  [.dial "alice" 1, .relay (.act (.connect "bob" 1))] ++
  moves 0 [.register 0 true, .startWriter] ++ moves 1 [.register 0 true, .startWriter] ++
  moves 0 [.frame (some message) 1 1 true, .sendLive] ++
  moves 1 [.take, .write true, .frame (some (receiptFor "env-1" "delivered")) 2 2 true, .forward] ++
  moves 0 [.ack 1, .take, .write true, .take, .write true] ++ [.handle 0, .handle 0]

/-- The status overtakes the ack and is dropped: alice never learns that bob has
her message. -/
theorem early_confirmation_is_dropped : ¬ ∀ w, world.Reached Undisturbed w → Consumed w →
    ∀ id clientRef, (id, clientRef) ∈ w.named → clientRef ≠ "" →
      highest (confirmedStatuses w id) ≤ highest (emittedStatuses w clientRef) := by
  let begun : World := { relay := started (newHub "" false) none }
  have observed : (world.checkedRun Undisturbed begun confirmedTooSoon).map (fun w =>
      (decide (Consumed w), w.named, confirmedStatuses w "env-1", emittedStatuses w "m1")) =
      some (true, [("env-1", "m1")], ["delivered"], ["sent"]) := by decide +kernel
  have start : world.start begun := ⟨_, ⟨"", false, rfl⟩, rfl⟩
  obtain ⟨w, reached, seen⟩ := Machine.reached_of_observed observed (.start start)
  simp only [Prod.mk.injEq, decide_eq_true_eq] at seen
  obtain ⟨consumed, named, confirmed, emitted⟩ := seen
  intro converges
  have bound := converges w reached consumed
    "env-1" "m1" (by rw [named]; exact List.mem_cons_self) (by decide)
  rw [confirmed, emitted] at bound
  exact absurd bound (by decide)

end Hwfa.RelayConfirmations
