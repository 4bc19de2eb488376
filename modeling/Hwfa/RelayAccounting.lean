import Hwfa.RelayAddressing

/-!
What becomes of an envelope once its sender has been told it was accepted.

An accepted envelope is `Accounted` for when it is queued for its recipient, in
the channel or in the hands of a writer that still drains a connection of the
recipient, written to a socket of the recipient, or removed by the pruning of
its queue.  Between the two it may sit in the copy that a `register` of the
recipient has drained (`InFlush`).  The relay can lose it at three places: a
frame put on a full channel is dropped, one put on a channel whose writer has
returned is never read again, and a failed write leaves everything behind it in
the channel.  `DeliversSafely` excludes exactly these steps.
-/

namespace Hwfa.RelayAccounting

open Hwfa.Machines Hwfa.RelayEnvelope Hwfa.RelayHub Hwfa.RelayProcess Hwfa.RelayWiring
open Hwfa.RelayAddressing

/-- The frame a writer has taken and not written yet. -/
def inHand : Writer → List RelayMessage
  | .writing msg => [msg]
  | _ => []

/-- The frames on their way to the socket. -/
def unwritten (cl : Client) : List RelayMessage := inHand cl.writer ++ cl.out

/-- The connection is the recipient's. -/
def OfRecipient (cl : Client) (env : Envelope) : Prop :=
  cl.userID = env.recipientID ∧ cl.deviceID = env.recipientDevice

/-- The frame is on its way to the socket, and the writer has not returned. -/
def Draining (cl : Client) (env : Envelope) : Prop :=
  cl.writer ≠ .returned ∧ deliver env ∈ unwritten cl

/-- The envelope is in the drained copy that `register` has yet to send. -/
def Flushing (cl : Client) (env : Envelope) : Prop :=
  ∃ pending, cl.pc = .flushing pending ∧ ∃ qe ∈ pending, qe.env = env

/-- Some connection of the recipient stands in this relation to the envelope. -/
def AtRecipient (s : Relay) (env : Envelope) (relation : Client → Prop) : Prop :=
  ∃ c cl, s.clients c = some cl ∧ OfRecipient cl env ∧ relation cl

def Queued (s : Relay) (env : Envelope) : Prop := ∃ qe ∈ s.hub.queue env.key, qe.env = env

def Pruned (s : Relay) (env : Envelope) : Prop := ∃ qe ∈ s.pruned, qe.env = env

/-- The envelope is where the relay may say it is. -/
def Accounted (s : Relay) (env : Envelope) : Prop :=
  Queued s env ∨ AtRecipient s env (Draining · env) ∨
    AtRecipient s env (deliver env ∈ ·.written) ∨ Pruned s env

def InFlush (s : Relay) (env : Envelope) : Prop := AtRecipient s env (Flushing · env)

/-- A frame put on this channel now will be read by its writer. -/
def CanTake (cl : Client) : Prop := cl.out.length < outCapacity ∧ cl.writer ≠ .returned

/-- No envelope is dropped on a full channel, put on a channel nobody reads, or
left behind by a failing write. -/
def DeliversSafely (s : Relay) : Action → Prop
  | .at c .flush => ∀ cl, s.clients c = some cl → CanTake cl
  | .at c .sendLive => ∀ cl target env clientRef clt, s.clients c = some cl →
      cl.pc = .routing target env clientRef → s.clients target = some clt →
      clt.outClosed = false → CanTake clt
  | .at c (.write false) => ∀ cl, s.clients c = some cl → ∀ msg ∈ unwritten cl, msg.kind ≠ "deliver"
  | _ => True

/-- What a single connection may hold of an envelope. -/
def Has (cl : Client) (env : Envelope) : Prop :=
  Flushing cl env ∨ Draining cl env ∨ deliver env ∈ cl.written

/-- Accounted for, or in a flush. -/
def Kept (s : Relay) (env : Envelope) : Prop :=
  Queued s env ∨ AtRecipient s env (Has · env) ∨ Pruned s env

variable {s s' : Relay} {c : ConnId} {cl : Client} {env : Envelope}

theorem kept_of_queued (queued : Queued s env) : Kept s env := .inl queued

theorem kept_of_pruned (pruned : Pruned s env) : Kept s env := .inr (.inr pruned)

theorem kept_of_has (found : s.clients c = some cl) (recipient : OfRecipient cl env)
    (has : Has cl env) : Kept s env := .inr (.inl ⟨c, cl, found, recipient, has⟩)

theorem kept_iff : Kept s env ↔ Accounted s env ∨ InFlush s env := by
  constructor
  · rintro (queued | ⟨c, cl, found, recipient, flushing | draining | written⟩ | pruned)
    · exact .inl (.inl queued)
    · exact .inr ⟨c, cl, found, recipient, flushing⟩
    · exact .inl (.inr (.inl ⟨c, cl, found, recipient, draining⟩))
    · exact .inl (.inr (.inr (.inl ⟨c, cl, found, recipient, written⟩)))
    · exact .inl (.inr (.inr (.inr pruned)))
  · rintro ((queued | ⟨c, cl, found, recipient, draining⟩ | ⟨c, cl, found, recipient, written⟩ |
      pruned) | ⟨c, cl, found, recipient, flushing⟩)
    · exact kept_of_queued queued
    · exact kept_of_has found recipient (.inr (.inl draining))
    · exact kept_of_has found recipient (.inr (.inr written))
    · exact kept_of_pruned pruned
    · exact kept_of_has found recipient (.inl flushing)

/-- In a wired relay the connections under an envelope's key are its recipient's. -/
theorem recipient_of_key (wired : Wired s) (found : s.clients c = some cl)
    (keyed : env.key = cl.routeKey) : OfRecipient cl env := by
  rw [wired.keys c cl found] at keyed
  obtain ⟨user, device⟩ := routeKey_injective keyed
  exact ⟨user.symm, device.symm⟩

/-- Replacing the hub, the file or a history without losing queue or history. -/
theorem Kept.replace (kept : Kept s env) (clients : s'.clients = s.clients)
    (queue : Queued s env → Kept s' env) (pruned : s.pruned ⊆ s'.pruned) : Kept s' env := by
  rcases kept with queued | ⟨c, cl, found, recipient, has⟩ | ⟨qe, member, same⟩
  · exact queue queued
  · exact kept_of_has (clients ▸ found) recipient has
  · exact kept_of_pruned ⟨qe, pruned member, same⟩

/-- Changing one connection's record without losing what it holds. -/
theorem Kept.modify (kept : Kept s env) (f : Client → Client) (found : s.clients c = some cl)
    (same : Same cl (f cl)) (holds : Has cl env → Has (f cl) env) : Kept (s.modify c f) env := by
  rcases kept with queued | ⟨d, cld, before, recipient, has⟩ | pruned
  · exact kept_of_queued queued
  · by_cases own : d = c
    · subst own
      rw [found] at before
      cases before
      exact kept_of_has (modify_self f found) ⟨same.1.trans recipient.1, same.2.1.trans recipient.2⟩
        (holds has)
    · exact kept_of_has (by rw [modify_ne f own, before]) recipient has
  · exact kept_of_pruned pruned

/-- Changing neither what is left to flush nor the writer's side. -/
theorem Kept.advance (kept : Kept s env) (f : Client → Client) (found : s.clients c = some cl)
    (same : Same cl (f cl)) (elsewhere : ∀ pending, cl.pc ≠ .flushing pending)
    (writer : (f cl).writer = cl.writer) (out : (f cl).out = cl.out)
    (written : (f cl).written = cl.written) : Kept (s.modify c f) env := by
  refine kept.modify f found same ?_
  rintro (⟨pending, flushing, _⟩ | draining | done)
  · exact absurd flushing (elsewhere pending)
  · exact .inr (.inl (by rwa [Draining, unwritten, writer, out]))
  · exact .inr (.inr (by rwa [written]))

theorem Kept.goto (kept : Kept s env) (found : s.clients c = some cl) (pc : Pc)
    (elsewhere : ∀ pending, cl.pc ≠ .flushing pending) : Kept (s.goto c pc) env :=
  kept.advance _ found ⟨rfl, rfl, rfl⟩ elsewhere rfl rfl rfl

theorem unwritten_accept (cl : Client) (msg : RelayMessage) :
    unwritten (cl.accept msg) = unwritten cl ++ [msg] :=
  (List.append_assoc _ _ _).symm

/-- A channel that accepts a frame keeps the others. -/
theorem Has.accept (has : Has cl env) (msg : RelayMessage) : Has (cl.accept msg) env := by
  rcases has with flushing | ⟨running, member⟩ | written
  · exact .inl flushing
  · refine .inr (.inl ⟨running, ?_⟩)
    rw [unwritten_accept]
    exact List.mem_append_left _ member
  · exact .inr (.inr written)

/-- A send loses nothing that was held before it. -/
theorem Kept.send {target : ConnId} {msg : RelayMessage} (kept : Kept s env)
    (sent : s.send target msg = some s') : Kept s' env := by
  obtain ⟨clt, found, _, ⟨_, rfl⟩ | ⟨_, rfl⟩⟩ := send_cases sent
  · exact kept.modify _ found ⟨rfl, rfl, rfl⟩ (Has.accept · msg)
  · exact kept

/-- A handler that is not flushing moves on after its send has returned. -/
theorem Kept.sent {target : ConnId} {msg : RelayMessage} (kept : Kept s env)
    (found : s.clients c = some cl) (pc : Pc) (sent : s.send target msg = some s')
    (elsewhere : ∀ pending, cl.pc ≠ .flushing pending) : Kept (s'.goto c pc) env := by
  obtain ⟨cl', found', _, same, _⟩ := send_found sent found
  exact (kept.send sent).goto found' pc (same ▸ elsewhere)

/-- A frame sent where it can be taken is held there afterwards. -/
theorem kept_of_sent {target : ConnId} {clt : Client} (sent : s.send target (deliver env) = some s')
    (found : s.clients target = some clt) (recipient : OfRecipient clt env) (ready : CanTake clt) :
    Kept s' env := by
  obtain ⟨clt', found', _, accepted⟩ := send_cases sent
  rw [found] at found'
  cases found'
  rcases accepted with ⟨_, rfl⟩ | ⟨full, _⟩
  · refine kept_of_has (modify_self _ found) recipient (.inr (.inl ⟨ready.2, ?_⟩))
    rw [unwritten_accept]
    exact List.mem_append_right _ (List.mem_singleton_self _)
  · exact absurd ready.1 (by omega)

/-- A new connection leaves the others as they are. -/
theorem Kept.connect (kept : Kept s env) (wired : Wired s) (userID : String) (deviceID : Int64) :
    Kept (s.connect userID deviceID) env := by
  rcases kept with queued | ⟨d, cld, before, recipient, has⟩ | pruned
  · exact kept_of_queued queued
  · have other : d ≠ s.nextConn := by
      rintro rfl
      rw [wired.fresh s.nextConn (Nat.le_refl _)] at before
      cases before
    exact kept_of_has ((connect_ne other).trans before) recipient has
  · exact kept_of_pruned pruned

/-- What `register` drains is pruned, or left to flush to its recipient. -/
theorem Kept.register {now : Int} {wrote : Bool} (kept : Kept s env) (wired : Wired s)
    (found : s.clients c = some cl) (pc : cl.pc = .registering)
    (clients : s'.clients =
      (s.goto c (.flushing (RelayHub.kept now (s.hub.queue cl.routeKey)))).clients)
    (hub : s'.hub = (s.hub.register c cl.routeKey now wrote s.disk).1)
    (pruned : s'.pruned = s.pruned ++ removed now (s.hub.queue cl.routeKey)) : Kept s' env := by
  have moved := kept.goto found (.flushing (RelayHub.kept now (s.hub.queue cl.routeKey)))
    (by simp [pc])
  refine moved.replace clients ?_ (pruned ▸ List.subset_append_left _ _)
  rintro ⟨qe, member, same⟩
  by_cases own : env.key = cl.routeKey
  · have queued : qe ∈ s.hub.queue cl.routeKey := own ▸ member
    rcases kept_or_removed now queued with stays | gone
    · have recipient : OfRecipient cl env := recipient_of_key wired found own
      have flushing : s'.clients c = some
          { cl with pc := .flushing (RelayHub.kept now (s.hub.queue cl.routeKey)) } := by
        rw [clients]
        exact modify_self _ found
      exact kept_of_has flushing recipient (.inl ⟨_, rfl, qe, stays, same⟩)
    · exact kept_of_pruned ⟨qe, pruned ▸ List.mem_append_right _ gone, same⟩
  · refine kept_of_queued ⟨qe, ?_, same⟩
    rw [hub, (register_eq s.hub c cl.routeKey now wrote s.disk).1]
    simp only [Function.update_of_ne own]
    exact member

/-- The flush puts an envelope on a channel that can take it. -/
theorem Kept.flush {qe : QueuedEnvelope} {rest : List QueuedEnvelope} (kept : Kept s env)
    (found : s.clients c = some cl) (pc : cl.pc = .flushing (qe :: rest)) (ready : CanTake cl)
    (sent : s.send c (deliver qe.env) = some s') : Kept (s'.goto c (.flushing rest)) env := by
  obtain ⟨cl', found', _, ⟨_, rfl⟩ | ⟨full, _⟩⟩ := send_cases sent
  · rw [found] at found'
    cases found'
    refine (kept.send sent).modify _ (modify_self _ found) ⟨rfl, rfl, rfl⟩ ?_
    rintro (⟨pending, flushing, qe', member, same⟩ | draining | written)
    · rw [show (cl.accept _).pc = _ from pc] at flushing
      cases flushing
      rcases List.mem_cons.mp member with rfl | later
      · refine .inr (.inl ⟨ready.2, ?_⟩)
        rw [← same]
        exact (unwritten_accept cl _) ▸ List.mem_append_right _ (List.mem_singleton_self _)
      · exact .inl ⟨rest, rfl, qe', later, same⟩
    · exact .inr (.inl draining)
    · exact .inr (.inr written)
  · rw [found] at found'
    cases found'
    exact absurd ready.1 (Nat.not_lt.mpr full)

/-- An entry of the queue that `route` appends to stays in it, or is pruned. -/
theorem kept_of_enqueue {qe : QueuedEnvelope} {letter : Envelope} {enqueuedAt now : Int}
    (hub : s'.hub = s.hub.enqueue letter enqueuedAt now)
    (pruned : s'.pruned = s.pruned ++
      removed now (s.hub.queue letter.key ++ [⟨s.hub.count.stamp letter, enqueuedAt⟩]))
    (queued : qe ∈ s.hub.queue letter.key ++ [⟨s.hub.count.stamp letter, enqueuedAt⟩])
    (own : env.key = letter.key) (same : qe.env = env) : Kept s' env := by
  rcases kept_or_removed now queued with stays | gone
  · refine kept_of_queued ⟨qe, ?_, same⟩
    simpa [hub, Hub.enqueue, own] using stays
  · exact kept_of_pruned ⟨qe, pruned ▸ List.mem_append_right _ gone, same⟩

/-- What was kept stays kept, in every step that delivers safely. -/
theorem Kept.step {a : Action} (kept : Kept s env) (wired : Wired s) (safe : DeliversSafely s a)
    (moved : s.step a = some s') : Kept s' env := by
  cases step_moves moved with
  | connect userID deviceID => exact kept.connect wired userID deviceID
  | register found pc => exact kept.register wired found pc rfl rfl rfl
  | flush found pc sent => exact kept.flush found pc (safe _ found) sent
  | flushPanic found pc panicked =>
    exact absurd panicked (wired.own_send found (by rw [pc]; simp [Closed]))
  | startWriter found pc =>
    next c cl =>
    have unstarted := wired.unstarted c cl found (by rw [pc]; trivial)
    refine kept.modify _ found ⟨rfl, rfl, rfl⟩ ?_
    rintro (⟨pending, flushing, qe, member, _⟩ | ⟨_, member⟩ | written)
    · rw [pc] at flushing
      cases flushing
      cases member
    · exact .inr (.inl ⟨by simp, by simpa [unwritten, unstarted, inHand] using member⟩)
    · exact .inr (.inr written)
  | take found writer out =>
    refine kept.modify _ found ⟨rfl, rfl, rfl⟩ ?_
    rintro (flushing | ⟨_, member⟩ | written)
    · exact .inl flushing
    · exact .inr (.inl ⟨by simp, by simpa [unwritten, writer, out, inHand] using member⟩)
    · exact .inr (.inr written)
  | write found writer =>
    refine kept.modify _ found ⟨rfl, rfl, rfl⟩ ?_
    rintro (flushing | ⟨_, member⟩ | written)
    · exact .inl flushing
    · simp only [unwritten, writer, inHand, List.cons_append, List.nil_append,
        List.mem_cons] at member
      rcases member with held | waiting
      · exact .inr (.inr (List.mem_append_right _ (List.mem_singleton.mpr held)))
      · exact .inr (.inl ⟨by simp, waiting⟩)
    · exact .inr (.inr (List.mem_append_left _ written))
  | writeError found writer =>
    next c cl msg =>
    refine kept.modify _ found ⟨rfl, rfl, rfl⟩ ?_
    rintro (flushing | ⟨_, member⟩ | written)
    · exact .inl flushing
    · exact absurd rfl (safe cl found _ member)
    · exact .inr (.inr written)
  | drained found writer out closed =>
    refine kept.modify _ found ⟨rfl, rfl, rfl⟩ ?_
    rintro (flushing | ⟨_, member⟩ | written)
    · exact .inl flushing
    · simp [unwritten, writer, out, inHand] at member
    · exact .inr (.inr written)
  | ignore _ _ => exact kept
  | registerPush _ _ => exact kept.replace rfl kept_of_queued (List.Subset.refl _)
  | routeLive found pc claimed connected =>
    exact (kept.goto found (.routing _ _ _) (by simp [pc])).replace rfl kept_of_queued
      (List.Subset.refl _)
  | routeOffline found pc claimed offline =>
    next c cl sent envelope msg enqueuedAt now wrote =>
    refine (kept.goto found (.acking _ _) (by simp [pc])).replace rfl ?_
      (List.subset_append_left _ _)
    rintro ⟨qe, member, same⟩
    by_cases own : env.key = sent.key
    · exact kept_of_enqueue rfl rfl (List.mem_append_left _ (own ▸ member)) own same
    · refine kept_of_queued ⟨qe, ?_, same⟩
      simpa [Hub.enqueue, own] using member
  | receipt found pc status connected => exact kept.goto found _ (by simp [pc])
  | sendLive found pc sent =>
    exact (kept.sent found (.acking _ _) sent (by simp [pc])).replace rfl kept_of_queued
      (List.Subset.refl _)
  | sendLivePanic found pc _ => exact kept.goto found _ (by simp [pc])
  | ack found pc kind sent => exact kept.sent found _ sent (by simp [pc])
  | ackPanic found pc _ => exact kept.goto found _ (by simp [pc])
  | forward found pc sent => exact kept.sent found _ sent (by simp [pc])
  | forwardPanic found pc _ => exact kept.goto found _ (by simp [pc])
  | readError found pc => exact kept.goto found _ (by simp [pc])
  | unregister found pc =>
    refine (kept.goto found .unregistered (by simp [pc])).replace rfl ?_ (List.Subset.refl _)
    rintro ⟨qe, member, same⟩
    exact kept_of_queued ⟨qe, by simpa using member, same⟩
  | closeOut found pc _ =>
    exact kept.advance _ found ⟨rfl, rfl, rfl⟩ (by simp [pc]) rfl rfl rfl
  | closeTwice found pc _ => exact kept.goto found _ (by simp [pc])
  | closeConn found pc =>
    exact kept.advance _ found ⟨rfl, rfl, rfl⟩ (by simp [pc]) rfl rfl rfl
  | expire found => exact kept.modify _ found ⟨rfl, rfl, rfl⟩ id

/-- Every accepted envelope is kept. -/
def AllKept (s : Relay) : Prop := ∀ env ∈ s.accepted, Kept s env

/-- An envelope accepted in this very step is kept as well. -/
theorem step_allKept {a : Action} (wired : Wired s) (sound : Sound s) (allKept : AllKept s)
    (safe : DeliversSafely s a) (moved : s.step a = some s') : AllKept s' := by
  have before (env : Envelope) (member : env ∈ s.accepted) : Kept s' env :=
    (allKept env member).step wired safe moved
  have unchanged (same : s'.accepted = s.accepted) : AllKept s' :=
    fun env member => before env (same ▸ member)
  cases step_moves moved with
  | routeOffline found pc claimed offline =>
    next c cl sent envelope msg enqueuedAt now wrote =>
    intro env member
    rcases List.mem_cons.mp member with rfl | old
    · exact kept_of_enqueue rfl rfl (List.mem_append_right _ (List.mem_singleton_self _)) rfl rfl
    · exact before env old
  | sendLive found pc sent =>
    next c cl target letter clientRef s₁ =>
    intro env member
    rcases List.mem_cons.mp member with rfl | old
    · obtain ⟨clt, target_found, opened, _⟩ := send_cases sent
      have ready := safe cl target env clientRef clt found pc target_found opened
      have routing := sound.handlers c cl found
      simp only [HandlerSound, pc] at routing
      have recipient := recipient_of_key wired target_found (routing clt target_found).1
      obtain ⟨cl', found', _, same, _⟩ := send_found sent found
      exact ((kept_of_sent sent target_found recipient ready).goto found' (.acking env.id clientRef)
        (by simp [same, pc])).replace rfl kept_of_queued (List.Subset.refl _)
    · exact before env (by rwa [show _ = s.accepted from (send_frame sent).2.2.2.2.1] at old)
  | flush _ _ sent => exact unchanged (send_frame sent).2.2.2.2.1
  | ack _ _ _ sent => exact unchanged (send_frame sent).2.2.2.2.1
  | forward _ _ sent => exact unchanged (send_frame sent).2.2.2.2.1
  | _ => exact unchanged rfl

/-- The runs of the relay process are runs of the service. -/
theorem reached_service {ok : Relay → Action → Prop} (reached : process.Reached ok s) :
    service.Reachable s := by
  induction reached with
  | start started => exact .start started
  | @step s s' a _ _ moved ih => exact .step ih (a := .act a) trivial moved

/-- **No accepted envelope is lost** in a run that delivers safely: in every
state reached, every envelope whose `route` has returned is queued, on its way
to a socket of its recipient, written to one, or pruned, unless a `register` of
the recipient is just flushing it. -/
theorem accepted_envelopes_are_accounted_for (reached : process.Reached DeliversSafely s)
    (accepted : env ∈ s.accepted) : Accounted s env ∨ InFlush s env := by
  have allKept : AllKept s := by
    refine reached.invariant_under AllKept
      (fun s reached => reachable_sound (reached_service reached)) ?_ ?_
    · rintro s ⟨path, pusher, rfl⟩ env member
      cases member
    · intro s a s' sound kept safe moved
      exact step_allKept sound.1 sound.2 kept safe moved
  exact kept_iff.mp (allKept env accepted)

/-! ## The flush outgrows the channel -/

/-- The record after one frame of a flush. -/
def flushOne (qe : QueuedEnvelope) (rest : List QueuedEnvelope) (cl : Client) : Client :=
  { if cl.out.length < outCapacity then cl.accept (deliver qe.env) else cl with
    pc := .flushing rest }

theorem flush_step {qe : QueuedEnvelope} {rest : List QueuedEnvelope}
    (found : s.clients c = some cl) (pc : cl.pc = .flushing (qe :: rest))
    (opened : cl.outClosed = false) :
    s.step (.at c .flush) = some (s.modify c (flushOne qe rest)) := by
  by_cases room : cl.out.length < outCapacity <;>
    simp [Relay.step, found, Relay.stepAt, pc, Relay.sendFrom, Relay.send, Client.send, opened,
      room, Relay.goto, Relay.modify, Client.accept, flushOne]

theorem flushOne_opened (qe : QueuedEnvelope) (rest : List QueuedEnvelope) (cl : Client) :
    (flushOne qe rest cl).outClosed = cl.outClosed := by
  unfold flushOne
  split <;> rfl

theorem flushOne_out (qe : QueuedEnvelope) (rest : List QueuedEnvelope) (cl : Client) :
    (flushOne qe rest cl).out = cl.out ++ [deliver qe.env].take (outCapacity - cl.out.length) := by
  unfold flushOne
  split
  · next room =>
    rw [List.take_of_length_le (by simp; omega)]
    rfl
  · next full => simp [Nat.sub_eq_zero_of_le (Nat.not_lt.mp full)]

theorem take_cons_append (x : α) (xs : List α) (room : Nat) :
    (x :: xs).take room = [x].take room ++ xs.take (room - ([x].take room).length) := by
  cases room <;> simp

/-- **A flush fills the channel and drops the rest.** The writer has not been
started, so the channel takes the first frames it has room for, however many
envelopes `register` has drained from the queue. -/
theorem flush_run {pending : List QueuedEnvelope} (found : s.clients c = some cl)
    (pc : cl.pc = .flushing pending) (opened : cl.outClosed = false) :
    ∃ s' cl', process.run s (List.replicate pending.length (.at c .flush)) = some s' ∧
      s'.clients c = some cl' ∧ cl'.pc = .flushing [] ∧
      cl'.out = cl.out ++
        (pending.map fun qe => deliver qe.env).take (outCapacity - cl.out.length) := by
  induction pending generalizing s cl with
  | nil => exact ⟨s, cl, rfl, found, pc, by simp⟩
  | cons qe rest ih =>
    obtain ⟨s', cl', ran, after, pc', out⟩ := ih (modify_self (flushOne qe rest) found) rfl
      ((flushOne_opened qe rest cl).trans opened)
    refine ⟨s', cl', ?_, after, pc', ?_⟩
    · rw [List.length_cons, List.replicate_succ, Machine.run,
        show process.step s (.at c .flush) = _ from flush_step found pc opened]
      exact ran
    · rw [out, flushOne_out, List.append_assoc, List.map_cons,
        take_cons_append (deliver qe.env) (rest.map fun qe => deliver qe.env), Nat.sub_sub,
        List.length_append]

/-! ## A writer that has returned -/

/-- The sender has read the ack of this envelope from its socket. -/
def Acked (s : Relay) (env : Envelope) : Prop :=
  ∃ c cl msg, s.clients c = some cl ∧ cl.userID = env.senderID ∧
    cl.deviceID = env.senderDevice ∧ msg ∈ cl.written ∧ msg.kind = "ack" ∧ msg.envelopeID = env.id

instance (cl : Client) : Decidable (CanTake cl) :=
  inferInstanceAs (Decidable (cl.out.length < outCapacity ∧ cl.writer ≠ .returned))

/-- What `DeliversSafely` asks of a send, by where the handler stands. -/
def TargetTakes (s : Relay) : Pc → Prop
  | .routing target .. => ∀ clt ∈ s.clients target, clt.outClosed = false → CanTake clt
  | _ => True

instance (s : Relay) : (pc : Pc) → Decidable (TargetTakes s pc)
  | .routing target .. =>
    inferInstanceAs (Decidable (∀ clt ∈ s.clients target, clt.outClosed = false → CanTake clt))
  | .registering | .flushing _ | .reading | .acking .. | .forwarding .. | .leaving | .unregistered
  | .channelClosed | .gone => .isTrue trivial

theorem sendLive_safe_iff : DeliversSafely s (.at c .sendLive) ↔
    ∀ cl ∈ s.clients c, TargetTakes s cl.pc := by
  constructor
  · intro safe cl found
    cases pc : cl.pc with
    | routing target env clientRef =>
      exact fun clt => safe cl target env clientRef clt found pc
    | _ => trivial
  · intro takes cl target env clientRef clt found pc
    have sends := takes cl found
    rw [pc] at sends
    exact sends clt

instance (s : Relay) : DecidablePred (DeliversSafely s)
  | .at c .flush => inferInstanceAs (Decidable (∀ cl ∈ s.clients c, CanTake cl))
  | .at _ .sendLive => decidable_of_iff' _ sendLive_safe_iff
  | .at c (.write false) =>
    inferInstanceAs (Decidable (∀ cl ∈ s.clients c, ∀ msg ∈ unwritten cl, msg.kind ≠ "deliver"))
  | .connect .. | .at _ (.write true) | .at _ (.register ..) | .at _ .startWriter | .at _ .take
  | .at _ .drained | .at _ (.frame ..) | .at _ (.ack _) | .at _ .forward | .at _ .readError
  | .at _ .unregister | .at _ .closeOut | .at _ .closeConn | .at _ .expire => .isTrue trivial

/-- The first letter waits in the queue for Bob, and is flushed to him; the second one finds
him connected. -/
def lettersToBob : List Action :=
  [ .connect "alice" 1, .at 0 (.register 0 true), .at 0 .startWriter,
    .at 0 sendLetter, .at 0 (.ack 2),
    .connect "bob" 1, .at 1 (.register 2 true), .at 1 .flush, .at 1 .startWriter,
    .at 0 sendLetter, .at 0 .sendLive, .at 0 (.ack 3), .at 1 .take, .at 1 (.write true) ]

/-- Bob has read the first letter, and the second one is on its way. -/
theorem letters_to_bob_are_accounted_for : ∃ s, process.Reached DeliversSafely s ∧
    s.accepted = [{ letter with id := "env-2" }, { letter with id := "env-1" }] ∧
    (s.clients 1).map (fun bob => (bob.written, bob.out)) =
      some ([deliver { letter with id := "env-1" }], [deliver { letter with id := "env-2" }]) ∧
    ∀ env ∈ s.accepted, Accounted s env ∨ InFlush s env := by
  have observed : (process.checkedRun DeliversSafely (started (newHub "" false) none)
      lettersToBob).map (fun s =>
        (s.accepted, (s.clients 1).map fun bob => (bob.written, bob.out))) =
      some ([{ letter with id := "env-2" }, { letter with id := "env-1" }],
        some ([deliver { letter with id := "env-1" }],
          [deliver { letter with id := "env-2" }])) := by decide +kernel
  obtain ⟨s, reached, seen⟩ := Machine.reached_of_observed observed (.start ⟨"", false, rfl⟩)
  simp only [Prod.mk.injEq] at seen
  exact ⟨s, reached, seen.1, seen.2, fun _ => accepted_envelopes_are_accounted_for reached⟩

/-- Bob's socket refuses the first letter, so his writer returns; his reader has
noticed nothing when the second letter is routed to him and acknowledged. -/
def lettersToDeadWriter : List Action :=
  [ .connect "alice" 1, .at 0 (.register 0 true), .at 0 .startWriter,
    .connect "bob" 1, .at 1 (.register 0 true), .at 1 .startWriter,
    .at 0 sendLetter, .at 0 .sendLive, .at 0 (.ack 2), .at 0 .take, .at 0 (.write true),
    .at 1 .take, .at 1 (.write false),
    .at 0 sendLetter, .at 0 .sendLive, .at 0 (.ack 3), .at 0 .take, .at 0 (.write true) ]

/-- What is left of the two letters. -/
structure Remains where
  nextConn : Nat
  accepted : List Envelope
  pruned : List QueuedEnvelope
  queued : List QueuedEnvelope
  sender : String × Int64
  read : List RelayMessage
  pc : Pc
  writer : Writer
  written : List RelayMessage
  deriving DecidableEq

def remains (s : Relay) : Option Remains := do
  let alice ← s.clients 0
  let bob ← s.clients 1
  some ⟨s.nextConn, s.accepted, s.pruned, s.hub.queue letter.key, (alice.userID, alice.deviceID),
    alice.written, bob.pc, bob.writer, bob.written⟩

/-- The second letter is acknowledged, and then it is nowhere. -/
theorem acknowledged_letter_is_lost : ¬ ∀ s env, process.Reachable s → env ∈ s.accepted →
    Acked s env → Accounted s env ∨ InFlush s env := by
  let env : Envelope := { letter with id := "env-2" }
  let ack (id : String) (at_ : Int) : RelayMessage :=
    { kind := "ack", envelopeID := id, acceptedAt := at_ }
  have observed : (process.run (started (newHub "" false) none) lettersToDeadWriter).bind remains =
      some ⟨2, [env, { letter with id := "env-1" }], [], [], ("alice", 1),
        [ack "env-1" 2, ack "env-2" 3], .reading, .returned, []⟩ := by
    decide +kernel
  obtain ⟨s, ran, seen⟩ := Option.bind_eq_some_iff.mp observed
  simp only [remains, Option.bind_eq_bind, Option.bind_eq_some_iff, Option.some.injEq,
    Remains.mk.injEq, Prod.mk.injEq] at seen
  obtain ⟨alice, alice_found, bob, bob_found, conns, accepted, pruned, queue, ⟨user, device⟩,
    read, pc, writer, written⟩ := seen
  have reached : process.Reachable s := Machine.reachable_of_run ⟨"", false, rfl⟩ _ ran
  have wired := reached_wired reached
  -- the only connection of the recipient is Bob's, whose writer has returned
  have nowhere (relation : Client → Prop) (at_bob : ¬ relation bob) :
      ¬ AtRecipient s env relation := by
    rintro ⟨c, cl, found, ⟨recipient, _⟩, related⟩
    have known : c < 2 := by
      by_contra beyond
      rw [wired.fresh c (conns ▸ Nat.not_lt.mp beyond)] at found
      cases found
    obtain rfl | rfl := Nat.le_one_iff_eq_zero_or_eq_one.mp (Nat.lt_succ_iff.mp known)
    · rw [alice_found] at found
      cases found
      rw [user] at recipient
      exact absurd recipient (by decide)
    · rw [bob_found] at found
      cases found
      exact at_bob related
  intro always
  have acked : Acked s env := by
    refine ⟨0, alice, ack "env-2" 3, alice_found, user, device, ?_, rfl, rfl⟩
    rw [read]
    simp
  rcases always s env reached (by rw [accepted]; simp) acked with
    (⟨qe, member, _⟩ | drained | received | ⟨qe, member, _⟩) | flushing
  · rw [show s.hub.queue env.key = [] from queue] at member
    cases member
  · exact nowhere _ (fun draining => draining.1 writer) drained
  · exact nowhere _ (by simp [written]) received
  · rw [pruned] at member
    cases member
  · refine nowhere _ ?_ flushing
    rintro ⟨pending, still, _⟩
    rw [pc] at still
    cases still

end Hwfa.RelayAccounting
