import Hwfa.RelayWiring

/-!
Addressing and sender authenticity of everything the relay delivers.

An envelope is `Addressed` to a key when it is routed by that key and is a
submission under the sender's authenticated identity.  The invariant says so of
every envelope the relay holds anywhere: in a queue or the file under the key, in
the copy a `register` has drained, in the hands of a `route`, and in every frame
a channel has ever accepted.  Since route keys are injective, the key of a
connection then is its user and device.
-/

namespace Hwfa.RelayAddressing

open Hwfa.Machines Hwfa.RelayEnvelope Hwfa.RelayHub Hwfa.RelayProcess Hwfa.RelayWiring

/-- The envelope is one that was submitted, with the submitter's authenticated
identity as its sender and the id the relay gave it. -/
def Authentic (submissions : List Submission) (env : Envelope) : Prop :=
  ∃ sub ∈ submissions, env =
    { sub.envelope with id := sub.id, senderID := sub.userID, senderDevice := sub.deviceID }

def Addressed (submissions : List Submission) (key : String) (env : Envelope) : Prop :=
  env.key = key ∧ Authentic submissions env

/-- Every queue holds only what is addressed to its key. -/
def QueuesSound (submissions : List Submission) (queue : String → List QueuedEnvelope) : Prop :=
  ∀ key, ∀ qe ∈ queue key, Addressed submissions key qe.env

/-- A deliver frame carries an envelope addressed to the key. -/
def FrameSound (submissions : List Submission) (key : String) (msg : RelayMessage) : Prop :=
  msg.kind = "deliver" → ∃ env, msg.envelope = some env ∧ Addressed submissions key env

/-- What a handler has captured is addressed to where it will send it. -/
def HandlerSound (s : Relay) (cl : Client) : Prop :=
  match cl.pc with
  | .flushing pending => ∀ qe ∈ pending, Addressed s.submissions cl.routeKey qe.env
  | .routing target env _ =>
    ∀ clt, s.clients target = some clt → Addressed s.submissions clt.routeKey env
  | .forwarding _ msg => msg.kind = "status"
  | _ => True

structure Sound (s : Relay) : Prop where
  queue : QueuesSound s.submissions s.hub.queue
  disk : ∀ p, s.disk = some p → QueuesSound s.submissions p.queue
  handlers : ∀ c cl, s.clients c = some cl → HandlerSound s cl
  frames : ∀ c cl, s.clients c = some cl → ∀ msg ∈ cl.placed, FrameSound s.submissions cl.routeKey msg

variable {s s' : Relay} {c : ConnId} {cl : Client}
variable {submissions submissions' : List Submission}

/-- Later submissions take nothing away. -/
theorem Addressed.mono {key : String} {env : Envelope} (addressed : Addressed submissions key env)
    (grown : submissions ⊆ submissions') : Addressed submissions' key env := by
  obtain ⟨routed, sub, member, same⟩ := addressed
  exact ⟨routed, sub, grown member, same⟩

theorem QueuesSound.mono {queue : String → List QueuedEnvelope}
    (sound : QueuesSound submissions queue) (grown : submissions ⊆ submissions') :
    QueuesSound submissions' queue :=
  fun key qe member => (sound key qe member).mono grown

/-- Replacing one queue by addressed entries. -/
theorem QueuesSound.update {queue : String → List QueuedEnvelope} {key : String}
    {entries : List QueuedEnvelope} (sound : QueuesSound submissions queue)
    (addressed : ∀ qe ∈ entries, Addressed submissions key qe.env) :
    QueuesSound submissions (Function.update queue key entries) := by
  intro key' qe member
  rw [Function.update_apply] at member
  split at member
  · next own => exact own ▸ addressed qe member
  · exact sound key' qe member

/-- A handler's capture stays sound while records keep their keys. -/
theorem HandlerSound.mono (sound : HandlerSound s cl) (grown : s.submissions ⊆ s'.submissions)
    (keyed : ∀ target clt', captured cl.pc = some target → s'.clients target = some clt' →
      ∃ clt, s.clients target = some clt ∧ clt'.routeKey = clt.routeKey) : HandlerSound s' cl := by
  unfold HandlerSound at sound ⊢
  split
  · next pending pc =>
    rw [pc] at sound
    exact fun qe member => (sound qe member).mono grown
  · next target env clientRef pc =>
    rw [pc] at sound keyed
    intro clt' found
    obtain ⟨clt, before, same⟩ := keyed target clt' rfl found
    rw [same]
    exact (sound clt before).mono grown
  · next target msg pc =>
    rw [pc] at sound
    exact sound
  · trivial

/-- Replacing the hub, the file or a history. -/
theorem Sound.replace (sound : Sound s) (clients : s'.clients = s.clients)
    (grown : s.submissions ⊆ s'.submissions) (queue : QueuesSound s'.submissions s'.hub.queue)
    (disk : ∀ p, s'.disk = some p → QueuesSound s'.submissions p.queue) : Sound s' := by
  refine ⟨queue, disk, ?_, ?_⟩
  · intro c cl found
    rw [clients] at found
    refine (sound.handlers c cl found).mono grown fun target clt _ after => ⟨clt, ?_, rfl⟩
    rwa [clients] at after
  · intro c cl found msg member deliver
    rw [clients] at found
    obtain ⟨env, carried, addressed⟩ := sound.frames c cl found msg member deliver
    exact ⟨env, carried, addressed.mono grown⟩

/-- Changing one connection's record. -/
theorem Sound.modify (sound : Sound s) (f : Client → Client) (found : s.clients c = some cl)
    (same : (f cl).routeKey = cl.routeKey) (handler : HandlerSound s (f cl))
    (frames : ∀ msg ∈ (f cl).placed, FrameSound s.submissions cl.routeKey msg) :
    Sound (s.modify c f) := by
  have keyed (target : ConnId) (clt' : Client) (after : (s.modify c f).clients target = some clt') :
      ∃ clt, s.clients target = some clt ∧ clt'.routeKey = clt.routeKey := by
    rcases modify_found_of found after with ⟨rfl, rfl⟩ | ⟨_, before⟩
    · exact ⟨cl, found, same⟩
    · exact ⟨clt', before, rfl⟩
  refine ⟨sound.queue, sound.disk, ?_, ?_⟩
  · intro d cl' after
    suffices before : HandlerSound s cl' from
      before.mono (fun _ member => member) fun target clt _ after => keyed target clt after
    rcases modify_found_of found after with ⟨rfl, rfl⟩ | ⟨_, before⟩
    · exact handler
    · exact sound.handlers d cl' before
  · intro d cl' after
    rcases modify_found_of found after with ⟨rfl, rfl⟩ | ⟨_, before⟩
    · rw [same]
      exact frames
    · exact sound.frames d cl' before

/-- Moving a handler on, with whatever else but the frames placed so far. -/
theorem Sound.modify_handler (sound : Sound s) (f : Client → Client)
    (found : s.clients c = some cl) (same : (f cl).routeKey = cl.routeKey)
    (placed : (f cl).placed = cl.placed) (handler : HandlerSound s (f cl)) :
    Sound (s.modify c f) :=
  sound.modify f found same handler (placed ▸ sound.frames c cl found)

theorem Sound.goto (sound : Sound s) (found : s.clients c = some cl) (pc : Pc)
    (handler : HandlerSound s { cl with pc := pc }) : Sound (s.goto c pc) :=
  sound.modify_handler _ found rfl rfl handler

/-- Changing only what the writer, the socket and the channel's content are. -/
theorem Sound.modify_writer (sound : Sound s) (f : Client → Client) (found : s.clients c = some cl)
    (same : (f cl).routeKey = cl.routeKey) (pc : (f cl).pc = cl.pc)
    (placed : (f cl).placed = cl.placed) : Sound (s.modify c f) := by
  refine sound.modify_handler f found same placed ?_
  have before := sound.handlers c cl found
  unfold HandlerSound at before ⊢
  rwa [pc, same]

/-- Putting a frame on a channel it is addressed to. -/
theorem Sound.send {target : ConnId} {msg : RelayMessage} (sound : Sound s)
    (sent : s.send target msg = some s')
    (addressed : ∀ clt, s.clients target = some clt → FrameSound s.submissions clt.routeKey msg) :
    Sound s' := by
  obtain ⟨clt, found, _, ⟨_, rfl⟩ | ⟨_, rfl⟩⟩ := send_cases sent
  · refine sound.modify _ found rfl ?_ ?_
    · exact sound.handlers target clt found
    · intro msg' member
      rcases List.mem_append.mp member with before | new
      · exact sound.frames target clt found msg' before
      · rw [List.mem_singleton.mp new]
        exact addressed clt found
  · exact sound

/-- What `persistLocked` leaves in the file is sound. -/
theorem persisted_sound {h : Hub} {wrote : Bool} {disk : Option PersistedHub}
    (queue : QueuesSound submissions h.queue)
    (old : ∀ p, disk = some p → QueuesSound submissions p.queue) :
    ∀ p, h.persistLocked wrote disk = some p → QueuesSound submissions p.queue := by
  intro p written
  rcases persistLocked_cases h wrote disk with kept | fresh
  · exact old p (kept ▸ written)
  · rw [fresh] at written
    cases written
    exact queue

/-- The envelope `route` stamps is an authentic one once it is logged. -/
theorem stamped_authentic (h : Hub) (cl : Client) (envelope : Envelope)
    (older : List Submission) :
    Authentic (⟨cl.userID, cl.deviceID, envelope, (h.stamp (cl.stampSender envelope)).id⟩ :: older)
      (h.stamp (cl.stampSender envelope)) :=
  ⟨_, List.mem_cons_self, rfl⟩

/-- A send followed by a move of the sending handler to a point without captures. -/
theorem Sound.sent {target : ConnId} {msg : RelayMessage} (sound : Sound s)
    (found : s.clients c = some cl) (pc : Pc) (sent : s.send target msg = some s')
    (addressed : ∀ clt, s.clients target = some clt → FrameSound s.submissions clt.routeKey msg)
    (handler : ∀ cl', Same cl cl' → HandlerSound s' { cl' with pc := pc }) :
    Sound (s'.goto c pc) := by
  obtain ⟨cl', found', same, _, _⟩ := send_found sent found
  exact (sound.send sent addressed).goto found' pc (handler cl' same)

/-- A new connection has placed nothing, and nobody has captured it. -/
theorem Sound.connect (wired : Wired s) (sound : Sound s) (userID : String) (deviceID : Int64) :
    Sound (s.connect userID deviceID) := by
  refine ⟨sound.queue, sound.disk, ?_, ?_⟩
  · intro d cl' after
    rcases connect_found after with rfl | before
    · trivial
    · refine (sound.handlers d cl' before).mono (fun _ member => member) ?_
      intro target clt' capture found'
      obtain ⟨clt, target_found⟩ := wired.known d cl' target before capture
      rw [connect_ne, target_found] at found'
      · cases found'
        exact ⟨_, target_found, rfl⟩
      · rintro rfl
        rw [wired.fresh s.nextConn (Nat.le_refl _)] at target_found
        cases target_found
  · intro d cl' after
    rcases connect_found after with rfl | before
    · intro msg member
      cases member
    · exact sound.frames d cl' before

/-- `register` drains the queue of its own key. -/
theorem Sound.register {now : Int} {wrote : Bool} (sound : Sound s)
    (found : s.clients c = some cl)
    (clients : s'.clients = (s.goto c (.flushing (kept now (s.hub.queue cl.routeKey)))).clients)
    (hub : s'.hub = (s.hub.register c cl.routeKey now wrote s.disk).1)
    (disk : s'.disk = (s.hub.register c cl.routeKey now wrote s.disk).2.1)
    (submissions : s'.submissions = s.submissions) : Sound s' := by
  have drained : QueuesSound s.submissions (Function.update s.hub.queue cl.routeKey []) :=
    sound.queue.update (by simp)
  have moved := sound.goto found (.flushing (kept now (s.hub.queue cl.routeKey)))
    fun qe member => sound.queue cl.routeKey qe (mem_of_mem_kept member)
  refine moved.replace clients (submissions ▸ fun _ member => member) ?_ ?_
  · rw [submissions, hub, (register_eq s.hub c cl.routeKey now wrote s.disk).1]
    exact drained
  · rw [submissions, disk]
    intro p written
    rcases register_disk s.hub c cl.routeKey now wrote s.disk with same | fresh
    · exact sound.disk p (same ▸ written)
    · rw [show _ = _ from fresh] at written
      cases written
      exact drained

/-- The flush sends what was queued for the connection. -/
theorem Sound.flush {qe : QueuedEnvelope} {rest : List QueuedEnvelope} (sound : Sound s)
    (found : s.clients c = some cl) (pc : cl.pc = .flushing (qe :: rest))
    (sent : s.send c (deliver qe.env) = some s') : Sound (s'.goto c (.flushing rest)) := by
  have flushing := sound.handlers c cl found
  simp only [HandlerSound, pc] at flushing
  refine sound.sent found _ sent ?_ ?_
  · intro clt found' _
    rw [found] at found'
    cases found'
    exact ⟨qe.env, rfl, flushing qe List.mem_cons_self⟩
  · intro cl' same qe' member
    rw [same.2.2, (send_frame sent).2.2.2.1]
    exact flushing qe' (List.mem_cons_of_mem _ member)

/-- `route` to a connection: what is stamped is addressed by the table. -/
theorem Sound.route_live {target : ConnId} {envelope : Envelope} {wrote : Bool} (wired : Wired s)
    (sound : Sound s) (found : s.clients c = some cl) (clientRef : String)
    (connected : s.hub.conns (cl.stampSender envelope).key = some target)
    (clients : s'.clients = s.clients) (hub : s'.hub = s.hub.count)
    (disk : s'.disk = s.hub.count.persistLocked wrote s.disk)
    (submissions : s'.submissions = ⟨cl.userID, cl.deviceID, envelope,
      (s.hub.count.stamp (cl.stampSender envelope)).id⟩ :: s.submissions) :
    Sound (s'.goto c
      (.routing target (s.hub.count.stamp (cl.stampSender envelope)) clientRef)) := by
  obtain ⟨clt, target_found, keyed, -⟩ := wired.live _ _ connected
  have grown : s.submissions ⊆ s'.submissions := by
    rw [submissions]
    exact List.subset_cons_self _ _
  have queue := sound.queue.mono grown
  have counted : Sound s' := by
    refine sound.replace clients grown (by rw [hub]; exact queue) ?_
    rw [disk]
    exact persisted_sound queue fun p before => (sound.disk p before).mono grown
  refine counted.goto (clients ▸ found) _ ?_
  intro clt' found'
  rw [clients, target_found] at found'
  cases found'
  refine ⟨keyed.symm, ?_⟩
  rw [submissions]
  exact stamped_authentic _ _ _ _

/-- `route` to nobody: what is stamped joins the queue of its key. -/
theorem Sound.route_offline {envelope : Envelope} {enqueuedAt now : Int} {wrote : Bool}
    (sound : Sound s) (found : s.clients c = some cl) (clientRef : String)
    (clients : s'.clients = s.clients)
    (hub : s'.hub = s.hub.enqueue (cl.stampSender envelope) enqueuedAt now)
    (disk : s'.disk = s'.hub.persistLocked wrote s.disk)
    (submissions : s'.submissions = ⟨cl.userID, cl.deviceID, envelope,
      (s.hub.count.stamp (cl.stampSender envelope)).id⟩ :: s.submissions) :
    Sound (s'.goto c (.acking (s.hub.count.stamp (cl.stampSender envelope)).id clientRef)) := by
  have grown : s.submissions ⊆ s'.submissions := by
    rw [submissions]
    exact List.subset_cons_self _ _
  have queue : QueuesSound s'.submissions s'.hub.queue := by
    rw [hub]
    refine (sound.queue.mono grown).update fun qe member => ?_
    rcases List.mem_append.mp (mem_of_mem_kept member) with before | new
    · exact (sound.queue _ qe before).mono grown
    · rw [List.mem_singleton.mp new, submissions]
      exact ⟨rfl, stamped_authentic _ _ _ _⟩
  have queued : Sound s' := by
    refine sound.replace clients grown queue ?_
    rw [disk]
    exact persisted_sound queue fun p before => (sound.disk p before).mono grown
  exact queued.goto (clients ▸ found) _ trivial

/-- No step breaks addressing or authenticity. -/
theorem step_sound {a : Action} (wired : Wired s) (sound : Sound s) (moved : s.step a = some s') :
    Sound s' := by
  cases step_moves moved with
  | connect userID deviceID => exact sound.connect wired userID deviceID
  | register found pc => exact sound.register found rfl rfl rfl rfl
  | flush found pc sent => exact sound.flush found pc sent
  | flushPanic found pc _ => exact sound.goto found _ trivial
  | startWriter found pc => exact sound.modify_handler _ found rfl rfl trivial
  | take found _ _ => exact sound.modify_writer _ found rfl rfl rfl
  | write found _ => exact sound.modify_writer _ found rfl rfl rfl
  | writeError found _ => exact sound.modify_writer _ found rfl rfl rfl
  | drained found _ _ _ => exact sound.modify_writer _ found rfl rfl rfl
  | ignore _ _ => exact sound
  | registerPush _ _ => exact sound.replace rfl (fun _ member => member) sound.queue sound.disk
  | routeLive found pc claimed connected =>
    subst claimed
    exact sound.route_live wired found _ connected rfl rfl rfl rfl
  | routeOffline found pc claimed offline =>
    subst claimed
    exact sound.route_offline found _ rfl rfl rfl rfl
  | receipt found pc status connected => exact sound.goto found _ status
  | sendLive found pc sent =>
    next c cl target env clientRef s₁ =>
    have routing := sound.handlers c cl found
    simp only [HandlerSound, pc] at routing
    have acked := sound.sent found (.acking env.id clientRef) sent
      (fun clt found' _ => ⟨env, rfl, routing clt found'⟩) fun _ _ => trivial
    exact acked.replace rfl (fun _ member => member) acked.queue acked.disk
  | sendLivePanic found pc _ => exact sound.goto found _ trivial
  | ack found pc kind sent =>
    exact sound.sent found _ sent (fun _ _ deliver => absurd (kind.symm.trans deliver) (by decide))
      fun _ _ => trivial
  | ackPanic found pc _ => exact sound.goto found _ trivial
  | forward found pc sent =>
    have forwarding := sound.handlers _ _ found
    simp only [HandlerSound, pc] at forwarding
    exact sound.sent found _ sent (fun _ _ deliver => absurd (forwarding.symm.trans deliver) (by decide))
      fun _ _ => trivial
  | forwardPanic found pc _ => exact sound.goto found _ trivial
  | readError found pc => exact sound.goto found _ trivial
  | unregister found pc =>
    have moved := sound.goto found .unregistered trivial
    refine moved.replace rfl (fun _ member => member) ?_ sound.disk
    simp only [Relay.goto, Relay.modify, unregister_queue]
    exact sound.queue
  | closeOut found pc opened => exact sound.modify_handler _ found rfl rfl trivial
  | closeTwice found pc _ => exact sound.goto found _ trivial
  | closeConn found pc => exact sound.modify_handler _ found rfl rfl trivial
  | expire found => exact sound.modify_writer _ found rfl rfl rfl

/-- A restart finds nothing but sound queues in the file. -/
theorem booted_sound {path : String} {pusher : Bool} {disk : Option PersistedHub} {now : Int}
    (old : ∀ p, disk = some p → QueuesSound submissions p.queue) :
    QueuesSound submissions (boot path pusher disk now).queue := by
  unfold boot
  split
  · intro key qe member
    cases member
  · cases disk with
    | none =>
      intro key qe member
      cases member
    | some p => exact fun key qe member => old p rfl key qe (mem_of_mem_kept member)

theorem boot_conns (path : String) (pusher : Bool) (disk : Option PersistedHub) (now : Int)
    (key : String) : (boot path pusher disk now).conns key = none := by
  unfold boot
  split
  · rfl
  · cases disk <;> rfl

/-- Both invariants hold in every state of every run, restarts included. -/
theorem reachable_sound (reached : service.Reachable s) : Wired s ∧ Sound s := by
  refine reached.invariant (fun s => Wired s ∧ Sound s) ?_ ?_
  · rintro s ⟨path, pusher, rfl⟩
    refine ⟨started_wired fun _ => rfl, ?_, ?_, ?_, ?_⟩
    · intro key qe member
      cases member
    · intro p written
      cases written
    · intro c cl found
      cases found
    · intro c cl found
      cases found
  · rintro s event s' ⟨wired, sound⟩ _ moved
    cases event with
    | act a => exact ⟨step_wired wired moved, step_sound wired sound moved⟩
    | restart pusher readable now =>
      cases moved
      have booted : Wired (started _ s.disk) :=
        started_wired (boot_conns s.hub.path pusher (if readable then s.disk else none) now)
      refine ⟨booted.replace rfl rfl booted.live, ?_, sound.disk, ?_, ?_⟩
      · refine booted_sound fun p read => sound.disk p ?_
        split at read
        · exact read
        · cases read
      · intro c cl found
        cases found
      · intro c cl found
        cases found

/-- **Addressing and sender authenticity.** Every deliver frame ever placed on a
connection's channel carries an envelope for exactly the connection's
authenticated user and device, and that envelope is one some connection
submitted, changed only in its id and in the sender, which is the authenticated
identity of that connection.  The run may contain any frames, failed file writes
and restarts. -/
theorem delivered_frames_are_addressed_and_authentic {msg : RelayMessage}
    (reached : service.Reachable s) (found : s.clients c = some cl) (placed : msg ∈ cl.placed)
    (deliver : msg.kind = "deliver") :
    ∃ env, msg.envelope = some env ∧
      env.recipientID = cl.userID ∧ env.recipientDevice = cl.deviceID ∧
      ∃ sub ∈ s.submissions, env =
        { sub.envelope with id := sub.id, senderID := sub.userID, senderDevice := sub.deviceID } := by
  obtain ⟨wired, sound⟩ := reachable_sound reached
  obtain ⟨env, carried, keyed, authentic⟩ := sound.frames c cl found msg placed deliver
  rw [wired.keys c cl found] at keyed
  obtain ⟨user, device⟩ := routeKey_injective keyed
  exact ⟨env, carried, user, device, authentic⟩

/-- A letter to a user id with a colon in it, at the most negative device number,
under a false sender. -/
def forgedLetter : Envelope where
  id := ""
  recipientID := "bob:7"
  recipientDevice := Int64.minValue
  senderID := "mallory"
  senderDevice := 9
  type := 2
  ciphertext := "AAEC"
  timestamp := 0

/-- The letter is queued, the relay restarts, and its recipient connects. -/
def letterAcrossRestart : List Event :=
  [ .act (.connect "alice" 1), .act (.at 0 (.register 0 true)), .act (.at 0 .startWriter),
    .act (.at 0 (.frame (some { kind := "send", envelope := some forgedLetter }) 1 1 true)),
    .restart true true 2,
    .act (.connect "bob:7" Int64.minValue), .act (.at 0 (.register 3 true)), .act (.at 0 .flush) ]

theorem forged_letter_arrives_from_alice : ∃ s cl env, service.Reachable s ∧
    s.clients 0 = some cl ∧ deliver env ∈ cl.placed ∧ env.senderID = "alice" ∧
    (∃ env', (deliver env).envelope = some env' ∧
      env'.recipientID = cl.userID ∧ env'.recipientDevice = cl.deviceID ∧
      ∃ sub ∈ s.submissions, env' =
        { sub.envelope with id := sub.id, senderID := sub.userID, senderDevice := sub.deviceID }) := by
  let env : Envelope :=
    { forgedLetter with id := "env-1", senderID := "alice", senderDevice := 1 }
  have observed : (service.run (started (newHub "relay.json" true) none) letterAcrossRestart).bind
      (fun s => (s.clients 0).map fun cl => cl.placed) = some [deliver env] := by decide +kernel
  obtain ⟨s, ran, seen⟩ := Option.bind_eq_some_iff.mp observed
  obtain ⟨cl, found, placed⟩ := Option.map_eq_some_iff.mp seen
  have member : deliver env ∈ cl.placed := by rw [placed]; exact List.mem_singleton_self _
  have reached : service.Reachable s :=
    Machine.reachable_of_run ⟨"relay.json", true, rfl⟩ letterAcrossRestart ran
  exact ⟨s, cl, env, reached, found, member, rfl,
    delivered_frames_are_addressed_and_authentic reached found member rfl⟩

end Hwfa.RelayAddressing
