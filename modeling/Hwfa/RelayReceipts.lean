import Hwfa.Maps
import Hwfa.RelayIdentity
import Hwfa.RelayFrames

/-!
Delivery receipts from end to end: the recipient's device, the relay, and the
part of the sender's `HwfaClient` that turns acks and status frames into the
statuses of its messages (`packages/client/src/client.ts`, `relay.ts`).

Everyone but the sender is any client at all: a connection sends whatever frames
it likes.  The sender's own sockets are told apart from the rest, because what
the relay writes to them is handled by the sender, frame by frame, in the order
of the socket.  What the sender submits is not restricted either.

`named`, `delivered` and `receipts` are histories that no step reads.
-/

namespace Hwfa.RelayReceipts

open Hwfa.Machines Hwfa.Maps Hwfa.RelayEnvelope Hwfa.RelayHub Hwfa.RelayProcess
open Hwfa.RelayWiring Hwfa.RelayAddressing Hwfa.RelayIdentity Hwfa.RelayFrames

/-- What `HwfaClient` knows about its messages and the relay's envelopes;
`emitted` is the history of `emitStatus`. -/
structure Sender where
  refToEnvelope : FinMap String String := ∅
  envelopeToRef : FinMap String String := ∅
  emitted : List (String × String) := []

def Sender.emitStatus (sender : Sender) (clientRef status : String) : Sender :=
  { sender with emitted := (clientRef, status) :: sender.emitted }

/-- `handleAck`; an absent `clientRef` is the empty string. -/
def Sender.handleAck (sender : Sender) (clientRef envelopeId : String) : Sender :=
  if clientRef = "" then sender
  else
    { sender with
      refToEnvelope := sender.refToEnvelope.insert clientRef envelopeId
      envelopeToRef := sender.envelopeToRef.insert envelopeId clientRef
      : Sender }.emitStatus clientRef "sent"

def Sender.handleStatus (sender : Sender) (envelopeId status : String) : Sender :=
  match sender.envelopeToRef.lookup envelopeId with
  | some clientRef => if clientRef = "" then sender else sender.emitStatus clientRef status
  | none => sender

/-- The message listener of `RelayConnection`, as far as statuses go. -/
def Sender.listen (sender : Sender) (msg : RelayMessage) : Sender :=
  if msg.kind = "deliver" ∧ msg.envelope.isSome then sender
  else if msg.kind = "ack" then sender.handleAck msg.clientRef msg.envelopeID
  else if msg.kind = "status" then sender.handleStatus msg.envelopeID msg.status
  else sender

/-- A receipt frame the relay has read, with whether its device had been
delivered an envelope of this id, and whether it was forwarded to the sender. -/
structure Receipt where
  userID : String
  deviceID : Int64
  envelopeID : String
  status : String
  received : Bool
  forwarded : Bool

/-- An envelope written to a socket of this device. -/
structure Delivery where
  userID : String
  deviceID : Int64
  envelope : Envelope
  deriving DecidableEq

structure World where
  relay : Relay
  /-- the connections that are the sender's, and the sockets they are to it -/
  sockets : ConnId → Option Nat := fun _ => none
  /-- what the relay has written to a socket and the sender has not handled -/
  arriving : Nat → List RelayMessage := fun _ => []
  nextSocket : Nat := 0
  sender : Sender := {}
  /-- history: envelope ids of the sender's submissions, with their `clientRef` -/
  named : List (String × String) := []
  delivered : List Delivery := []
  receipts : List Receipt := []

/-- The device has been delivered an envelope of this id. -/
def World.hasReceived (w : World) (cl : Client) (id : String) : Bool :=
  w.delivered.any fun d => d.userID = cl.userID ∧ d.deviceID = cl.deviceID ∧ d.envelope.id = id

/-- A frame has been written to the socket of connection `c`. -/
def World.wrote (w : World) (c : ConnId) (cl : Client) (msg : RelayMessage) : World :=
  { w with
    arriving := match w.sockets c with
      | some socket => Function.update w.arriving socket (w.arriving socket ++ [msg])
      | none => w.arriving
    delivered := (deliveries [msg]).map (⟨cl.userID, cl.deviceID, ·⟩) ++ w.delivered }

/-- The relay has read a frame of connection `c`. -/
def World.read (w : World) (c : ConnId) (cl : Client) (msg : RelayMessage) : World :=
  { w with
    named :=
      if (w.sockets c).isSome then
        (submits w.relay cl msg).toList.map (fun sub => (sub.id, msg.clientRef)) ++ w.named
      else w.named
    receipts :=
      if msg.kind = "receipt" then
        { userID := cl.userID, deviceID := cl.deviceID, envelopeID := msg.envelopeID
          status := msg.status, received := w.hasReceived cl msg.envelopeID
          forwarded := ((forwardsTo w.relay msg).bind w.sockets).isSome } :: w.receipts
      else w.receipts }

/-- What a step of the relay means to the world outside it. -/
def World.watch (w : World) : Event → World
  | .act (.at c (.write true)) =>
    match w.relay.clients c with
    | some cl =>
      match cl.writer with
      | .writing msg => w.wrote c cl msg
      | _ => w
    | none => w
  | .act (.at c (.frame (some msg) _ _ _)) =>
    match w.relay.clients c with
    | some cl => w.read c cl msg
    | none => w
  | .act _ => w
  | .restart .. => { w with sockets := fun _ => none }

inductive Act where
  /-- the relay moves, or somebody else connects -/
  | relay (event : Event)
  /-- the sender opens a socket, as some user and device -/
  | dial (userID : String) (deviceID : Int64)
  /-- the sender handles the next frame of a socket -/
  | handle (socket : Nat)

def world : Machine World Act where
  start w := ∃ relay, service.start relay ∧ w = { relay := relay }
  step w
    | .relay event => (service.step w.relay event).map fun s => { w.watch event with relay := s }
    | .dial userID deviceID =>
      some { w with
        relay := w.relay.connect userID deviceID
        sockets := Function.update w.sockets w.relay.nextConn (some w.nextSocket)
        nextSocket := w.nextSocket + 1 }
    | .handle socket =>
      match w.arriving socket with
      | [] => none
      | msg :: rest =>
        some { w with
          sender := w.sender.listen msg
          arriving := Function.update w.arriving socket rest }

/-! ## What a status is worth -/

/-- The frame the relay reads in this step, if it reads one. -/
def frameOf : Act → Option (ConnId × RelayMessage)
  | .relay (.act (.at c (.frame (some msg) _ _ _))) => some (c, msg)
  | _ => none

/-- The relay gives no id twice. -/
def Fresh (w : World) (a : Act) : Prop :=
  ∀ frame ∈ frameOf a, ∀ cl ∈ w.relay.clients frame.1,
    ∀ sub ∈ submits w.relay cl frame.2, ∀ older ∈ w.relay.submissions, older.id ≠ sub.id

/-- Every receipt the relay forwards comes from a device that was delivered an
envelope with the id it names. -/
def Entitled (w : World) (a : Act) : Prop :=
  ∀ frame ∈ frameOf a, ∀ cl ∈ w.relay.clients frame.1,
    forwardsTo w.relay frame.2 ≠ none → w.hasReceived cl frame.2.envelopeID = true

def Honest (w : World) (a : Act) : Prop := Fresh w a ∧ Entitled w a

instance (w : World) (a : Act) : Decidable (Fresh w a) := by
  unfold Fresh
  infer_instance

instance (w : World) (a : Act) : Decidable (Honest w a) := by
  unfold Honest Entitled
  infer_instance

/-- The envelope the relay made of a submission. -/
def stampedOf (sub : Submission) : Envelope :=
  { sub.envelope with id := sub.id, senderID := sub.userID, senderDevice := sub.deviceID }

/-- The device a submission was addressed to was delivered it. -/
def DeliveredTo (w : World) (sub : Submission) : Prop :=
  ∃ d ∈ w.delivered, d.userID = sub.envelope.recipientID ∧
    d.deviceID = sub.envelope.recipientDevice ∧ d.envelope = stampedOf sub

/-- The device a submission was addressed to sent a receipt for it. -/
def ReceiptedBy (w : World) (sub : Submission) (status : String) : Prop :=
  ∃ r ∈ w.receipts, r.userID = sub.envelope.recipientID ∧
    r.deviceID = sub.envelope.recipientDevice ∧ r.envelopeID = sub.id ∧ r.status = status

/-- The recipient of the envelope with this id has confirmed it. -/
def Confirmed (w : World) (id status : String) : Prop :=
  ∃ sub ∈ w.relay.submissions, sub.id = id ∧ DeliveredTo w sub ∧ ReceiptedBy w sub status

/-- The connection is one of the sender's. -/
def Mine (w : World) (c : ConnId) : Prop := (w.sockets c).isSome = true

/-- An ack to the sender answers one of its submissions. -/
def Answers (w : World) (mine : Prop) (msg : RelayMessage) : Prop :=
  msg.kind = "ack" → mine → (msg.envelopeID, msg.clientRef) ∈ w.named

/-- A handler that will ack to the sender has a submission of its to ack. -/
def Owed (w : World) (mine : Prop) : Pc → Prop
  | .routing _ env clientRef => mine → (env.id, clientRef) ∈ w.named
  | .acking id clientRef => mine → (id, clientRef) ∈ w.named
  | _ => True

/-- A status is one the recipient has confirmed. -/
def Truthful (w : World) (msg : RelayMessage) : Prop :=
  msg.kind = "status" → Confirmed w msg.envelopeID msg.status

/-- What a handler forwards is a confirmed status. -/
def Promises (w : World) : Pc → Prop
  | .forwarding _ msg => Confirmed w msg.envelopeID msg.status
  | _ => True

/-- What the sender is told about its submissions is right. -/
structure Answered (w : World) : Prop where
  placed : ∀ c cl, w.relay.clients c = some cl →
    (∀ msg ∈ cl.out, msg ∈ cl.placed) ∧ ∀ msg, cl.writer = .writing msg → msg ∈ cl.placed
  frames : ∀ c cl, w.relay.clients c = some cl → ∀ msg ∈ cl.placed, Answers w (Mine w c) msg
  hands : ∀ c cl, w.relay.clients c = some cl → Owed w (Mine w c) cl.pc
  arriving : ∀ socket, ∀ msg ∈ w.arriving socket, Answers w True msg
  mapped : ∀ id clientRef, w.sender.envelopeToRef.lookup id = some clientRef →
    (id, clientRef) ∈ w.named
  submitted : (w.relay.submissions.map (·.id)).Nodup
  named : ∀ id clientRef, (id, clientRef) ∈ w.named → ∃ sub ∈ w.relay.submissions, sub.id = id
  delivered : ∀ d ∈ w.delivered, ∃ sub ∈ w.relay.submissions,
    d.userID = sub.envelope.recipientID ∧ d.deviceID = sub.envelope.recipientDevice ∧
      d.envelope = stampedOf sub

/-- What the sender is told about its recipients is right. -/
structure Vouched (w : World) : Prop where
  frames : ∀ c cl, w.relay.clients c = some cl → ∀ msg ∈ cl.placed, Truthful w msg
  hands : ∀ c cl, w.relay.clients c = some cl → Promises w cl.pc
  arriving : ∀ socket, ∀ msg ∈ w.arriving socket, Truthful w msg
  emitted : ∀ clientRef status, (clientRef, status) ∈ w.sender.emitted →
    status = "sent" ∨ ∃ id, (id, clientRef) ∈ w.named ∧ Confirmed w id status

variable {w w' : World} {c : ConnId} {cl : Client} {msg : RelayMessage} {id status : String}

theorem mine_of_sockets (same : w'.sockets c = w.sockets c) (mine : Mine w' c) : Mine w c := by
  unfold Mine at mine ⊢
  rwa [same] at mine

/-- The histories only grow. -/
structure Grows (w w' : World) : Prop where
  submissions : w.relay.submissions ⊆ w'.relay.submissions
  named : w.named ⊆ w'.named
  delivered : w.delivered ⊆ w'.delivered
  receipts : w.receipts ⊆ w'.receipts

theorem Confirmed.mono (confirmed : Confirmed w id status) (grows : Grows w w') :
    Confirmed w' id status := by
  obtain ⟨sub, member, same, ⟨d, delivered, device⟩, ⟨r, receipt, confirms⟩⟩ := confirmed
  exact ⟨sub, grows.submissions member, same, ⟨d, grows.delivered delivered, device⟩,
    ⟨r, grows.receipts receipt, confirms⟩⟩

theorem Grows.same (submissions : w'.relay.submissions = w.relay.submissions)
    (named : w'.named = w.named) (delivered : w'.delivered = w.delivered)
    (receipts : w'.receipts = w.receipts) : Grows w w' := by
  refine ⟨?_, ?_, ?_, ?_⟩
  · rw [submissions]
    exact List.Subset.refl _
  · rw [named]
    exact List.Subset.refl _
  · rw [delivered]
    exact List.Subset.refl _
  · rw [receipts]
    exact List.Subset.refl _

theorem Answers.mono {mine mine' : Prop} (answers : Answers w mine msg) (grows : Grows w w')
    (owner : mine' → mine) : Answers w' mine' msg :=
  fun ack own => grows.named (answers ack (owner own))

theorem Owed.mono {mine mine' : Prop} {pc : Pc} (owed : Owed w mine pc) (grows : Grows w w')
    (owner : mine' → mine) : Owed w' mine' pc := by
  cases pc with
  | routing target env clientRef => exact fun own => grows.named (owed (owner own))
  | acking id clientRef => exact fun own => grows.named (owed (owner own))
  | _ => trivial

theorem Truthful.mono (truthful : Truthful w msg) (grows : Grows w w') : Truthful w' msg :=
  fun status => (truthful status).mono grows

theorem Promises.mono {pc : Pc} (promises : Promises w pc) (grows : Grows w w') :
    Promises w' pc := by
  cases pc with
  | forwarding target msg => exact Confirmed.mono promises grows
  | _ => trivial

/-! ## What the world sees of a step of the relay -/

/-- A step of the relay leaves the sender and its sockets alone. -/
theorem watch_act (w : World) (a : Action) :
    (w.watch (.act a)).relay = w.relay ∧ (w.watch (.act a)).sockets = w.sockets ∧
      (w.watch (.act a)).nextSocket = w.nextSocket ∧ (w.watch (.act a)).sender = w.sender := by
  unfold World.watch
  split
  · split
    · split
      · exact ⟨rfl, rfl, rfl, rfl⟩
      · exact ⟨rfl, rfl, rfl, rfl⟩
    · exact ⟨rfl, rfl, rfl, rfl⟩
  · split
    · exact ⟨rfl, rfl, rfl, rfl⟩
    · exact ⟨rfl, rfl, rfl, rfl⟩
  · exact ⟨rfl, rfl, rfl, rfl⟩
  · next same => cases same

theorem watch_grows (w : World) (event : Event) :
    w.named ⊆ (w.watch event).named ∧ w.delivered ⊆ (w.watch event).delivered ∧
      w.receipts ⊆ (w.watch event).receipts := by
  have same : w.named ⊆ w.named ∧ w.delivered ⊆ w.delivered ∧ w.receipts ⊆ w.receipts :=
    ⟨List.Subset.refl _, List.Subset.refl _, List.Subset.refl _⟩
  unfold World.watch
  split
  · split
    · split
      · exact ⟨List.Subset.refl _, List.subset_append_right _ _, List.Subset.refl _⟩
      · exact same
    · exact same
  · split
    · refine ⟨?_, List.Subset.refl _, ?_⟩
      · simp only [World.read]
        split
        · exact List.subset_append_right _ _
        · exact List.Subset.refl _
      · simp only [World.read]
        split
        · exact List.subset_cons_self _ _
        · exact List.Subset.refl _
    · exact same
  · exact same
  · exact same

/-- A frame on its way to the sender was there or has just been written. -/
theorem watch_arriving {a : Action} {socket : Nat}
    (member : msg ∈ (w.watch (.act a)).arriving socket) :
    msg ∈ w.arriving socket ∨ ∃ c cl, w.relay.clients c = some cl ∧ cl.writer = .writing msg ∧
      w.sockets c = some socket := by
  unfold World.watch at member
  split at member
  · split at member
    · next c same _ cl found =>
      split at member
      · next msg' writer =>
        simp only [World.wrote] at member
        cases mine : w.sockets c with
        | none =>
          rw [mine] at member
          exact .inl member
        | some socket' =>
          simp only [mine, Function.update_apply] at member
          split at member
          · next own =>
            rcases List.mem_append.mp member with before | new
            · exact .inl (own ▸ before)
            · cases List.mem_singleton.mp new
              exact .inr ⟨c, cl, found, writer, own ▸ mine⟩
          · exact .inl member
      · exact .inl member
    · exact .inl member
  · split at member
    · exact .inl member
    · exact .inl member
  · exact .inl member
  · next same => cases same

/-- A delivery was there or has just been written. -/
theorem watch_delivered {a : Action} {d : Delivery} (member : d ∈ (w.watch (.act a)).delivered) :
    d ∈ w.delivered ∨ ∃ c cl msg env, w.relay.clients c = some cl ∧ cl.writer = .writing msg ∧
      msg.kind = "deliver" ∧ msg.envelope = some env ∧ d = ⟨cl.userID, cl.deviceID, env⟩ := by
  unfold World.watch at member
  split at member
  · split at member
    · next c same _ cl found =>
      split at member
      · next msg writer =>
        rcases List.mem_append.mp member with new | before
        · obtain ⟨env, carried, rfl⟩ := List.mem_map.mp new
          simp only [deliveries, List.filterMap_cons, List.filterMap_nil] at carried
          split at carried
          · cases carried
          · next env' read =>
            cases List.mem_singleton.mp carried
            simp only [Option.ite_none_right_eq_some] at read
            exact .inr ⟨c, cl, msg, env, found, writer, read.1, read.2, rfl⟩
        · exact .inl before
      · exact .inl member
    · exact .inl member
  · split at member
    · exact .inl member
    · exact .inl member
  · exact .inl member
  · next same => cases same

/-- A submission of the sender's was there or has just been read. -/
theorem watch_named {a : Action} {clientRef : String}
    (member : (id, clientRef) ∈ (w.watch (.act a)).named) :
    (id, clientRef) ∈ w.named ∨ ∃ c cl msg sub enqueuedAt now wrote,
      a = .at c (.frame (some msg) enqueuedAt now wrote) ∧ w.relay.clients c = some cl ∧
        submits w.relay cl msg = some sub ∧ id = sub.id ∧ clientRef = msg.clientRef ∧
        Mine w c := by
  unfold World.watch at member
  split at member
  · split at member
    · split at member
      · exact .inl member
      · exact .inl member
    · exact .inl member
  · next c msg enqueuedAt now wrote same =>
    cases same
    split at member
    · next cl found =>
      simp only [World.read] at member
      split at member
      · next mine =>
        rcases List.mem_append.mp member with new | before
        · obtain ⟨sub, submitted, named⟩ := List.mem_map.mp new
          cases named
          exact .inr ⟨c, cl, msg, sub, _, _, _, rfl, found, Option.mem_toList.mp submitted, rfl,
            rfl, mine⟩
        · exact .inl before
      · exact .inl member
    · exact .inl member
  · exact .inl member
  · next same => cases same

/-- A receipt was there or has just been read. -/
theorem watch_receipts {a : Action} {r : Receipt} (member : r ∈ (w.watch (.act a)).receipts) :
    r ∈ w.receipts ∨ ∃ c cl msg enqueuedAt now wrote,
      a = .at c (.frame (some msg) enqueuedAt now wrote) ∧ w.relay.clients c = some cl ∧
        msg.kind = "receipt" ∧
        r = ⟨cl.userID, cl.deviceID, msg.envelopeID, msg.status, w.hasReceived cl msg.envelopeID,
          ((forwardsTo w.relay msg).bind w.sockets).isSome⟩ := by
  unfold World.watch at member
  split at member
  · split at member
    · split at member
      · exact .inl member
      · exact .inl member
    · exact .inl member
  · next c msg enqueuedAt now wrote same =>
    cases same
    split at member
    · next cl found =>
      simp only [World.read] at member
      split at member
      · next kind =>
        rcases List.mem_cons.mp member with new | before
        · exact .inr ⟨c, cl, msg, _, _, _, rfl, found, kind, new⟩
        · exact .inl before
      · exact .inl member
    · exact .inl member
  · exact .inl member
  · next same => cases same

/-- What is recorded of a frame that is read. -/
theorem watch_frame {enqueuedAt now : Int} {wrote : Bool} (found : w.relay.clients c = some cl) :
    w.watch (.act (.at c (.frame (some msg) enqueuedAt now wrote))) = w.read c cl msg := by
  simp only [World.watch, found]

/-! ## The invariant over a run -/

variable {s : Relay} {a : Action}

theorem grows_act (moved : w.relay.step a = some s) :
    Grows w { w.watch (.act a) with relay := s } := by
  obtain ⟨named, delivered, receipts⟩ := watch_grows w (.act a)
  refine ⟨?_, named, delivered, receipts⟩
  rcases step_submissions moved with same | ⟨_, _, _, _, _, _, _, _, _, _, added⟩
  · exact same ▸ List.Subset.refl _
  · exact added ▸ List.subset_cons_self _ _

/-- A frame of a fresh id is recorded under a new one. -/
theorem submitted_act (answered : Answered w) (fresh : Fresh w (.relay (.act a)))
    (moved : w.relay.step a = some s) : (s.submissions.map (·.id)).Nodup := by
  rcases step_submissions moved with same | ⟨c, cl, msg, sub, _, _, _, rfl, found, submitted, added⟩
  · rw [same]
    exact answered.submitted
  · rw [added, List.map_cons, List.nodup_cons]
    refine ⟨?_, answered.submitted⟩
    intro member
    obtain ⟨older, before, same⟩ := List.mem_map.mp member
    exact fresh (c, msg) rfl cl found sub submitted older before same

/-- The submission of a frame is in the record after it. -/
theorem submission_kept {enqueuedAt now : Int} {wrote : Bool} {sub : Submission}
    (moved : w.relay.step (.at c (.frame (some msg) enqueuedAt now wrote)) = some s)
    (found : w.relay.clients c = some cl) (submitted : submits w.relay cl msg = some sub) :
    sub ∈ s.submissions := by
  obtain ⟨cl', found', _, result⟩ := step_frame moved
  rw [found] at found'
  cases found'
  have added := (readFrame_step (s := w.relay) (c := c) cl msg enqueuedAt now wrote).submissions
  rw [← result, submitted] at added
  rw [added]
  exact List.mem_cons_self

/-- What is delivered was submitted for its device. -/
theorem delivered_act (wired : Wired w.relay) (sound : Sound w.relay) (answered : Answered w)
    (grows : Grows w { w.watch (.act a) with relay := s }) (d : Delivery)
    (member : d ∈ (w.watch (.act a)).delivered) :
    ∃ sub ∈ s.submissions, d.userID = sub.envelope.recipientID ∧
      d.deviceID = sub.envelope.recipientDevice ∧ d.envelope = stampedOf sub := by
  rcases watch_delivered member with before | ⟨c, cl, msg, env, found, writer, kind, carried, rfl⟩
  · obtain ⟨sub, submitted, device⟩ := answered.delivered d before
    exact ⟨sub, grows.submissions submitted, device⟩
  · have placed := (answered.placed c cl found).2 msg writer
    obtain ⟨env', carried', keyed, sub, submitted, same⟩ := sound.frames c cl found msg placed kind
    rw [carried] at carried'
    cases carried'
    rw [wired.keys c cl found] at keyed
    obtain ⟨user, device⟩ := routeKey_injective keyed
    subst same
    exact ⟨sub, grows.submissions submitted, user.symm, device.symm, rfl⟩

/-- A device that has received an envelope was sent one that was submitted. -/
theorem received_submission (answered : Answered w) (received : w.hasReceived cl id = true) :
    ∃ sub ∈ w.relay.submissions, sub.id = id ∧ DeliveredTo w sub ∧
      cl.userID = sub.envelope.recipientID ∧ cl.deviceID = sub.envelope.recipientDevice := by
  simp only [World.hasReceived, List.any_eq_true, decide_eq_true_eq] at received
  obtain ⟨d, delivered, user, device, same⟩ := received
  obtain ⟨sub, submitted, recipient, recipientDevice, stamped⟩ := answered.delivered d delivered
  refine ⟨sub, submitted, ?_, ⟨d, delivered, recipient, recipientDevice, stamped⟩,
    user.symm.trans recipient, device.symm.trans recipientDevice⟩
  rw [← same, stamped]
  rfl

theorem receipt_of_forwarded {target : ConnId} (forwards : forwardsTo s msg = some target) :
    msg.kind = "receipt" := by
  unfold forwardsTo at forwards
  split at forwards
  · next valid => exact valid.1
  · cases forwards

/-- A receipt its sender is entitled to is forwarded as a confirmed status. -/
theorem confirmed_act {enqueuedAt now : Int} {wrote : Bool} {target : ConnId}
    (answered : Answered w)
    (entitled : Entitled w (.relay (.act (.at c (.frame (some msg) enqueuedAt now wrote)))))
    (found : w.relay.clients c = some cl) (forwards : forwardsTo w.relay msg = some target)
    (grows : Grows w
      { w.watch (.act (.at c (.frame (some msg) enqueuedAt now wrote))) with relay := s }) :
    Confirmed { w.watch (.act (.at c (.frame (some msg) enqueuedAt now wrote))) with relay := s }
      msg.envelopeID msg.status := by
  have heard := Option.ne_none_iff_exists'.mpr ⟨_, forwards⟩
  obtain ⟨sub, submitted, same, ⟨d, delivered, device⟩, recipient, recipientDevice⟩ :=
    received_submission answered (entitled (c, msg) rfl cl found heard)
  refine ⟨sub, grows.submissions submitted, same, ⟨d, grows.delivered delivered, device⟩, ?_⟩
  have recorded : (⟨cl.userID, cl.deviceID, msg.envelopeID, msg.status, w.hasReceived cl msg.envelopeID,
      ((forwardsTo w.relay msg).bind w.sockets).isSome⟩ : Receipt) ∈ (w.read c cl msg).receipts := by
    simp [World.read, receipt_of_forwarded forwards]
  exact ⟨_, (watch_frame found).symm ▸ recorded, recipient, recipientDevice, same.symm, rfl⟩

/-- What the sender is told comes from the hands of a handler. -/
theorem answers_of_sends (statuses : ∀ c cl target msg, w.relay.clients c = some cl →
      cl.pc = .forwarding target msg → msg.kind = "status")
    (answered : Answered w) (sends : Sends w.relay a c msg) : Answers w (Mine w c) msg := by
  cases sends with
  | flush found pc => exact fun kind => absurd kind (by decide : ¬ "deliver" = "ack")
  | live found pc => exact fun kind => absurd kind (by decide : ¬ "deliver" = "ack")
  | ack found pc =>
    have owed := answered.hands _ _ found
    rw [pc] at owed
    exact fun _ => owed
  | forward found pc =>
    intro kind
    rw [statuses _ _ _ _ found pc] at kind
    exact absurd kind (by decide)

theorem truthful_of_sends (vouched : Vouched w) (sends : Sends w.relay a c msg) :
    Truthful w msg := by
  cases sends with
  | flush found pc => exact fun kind => absurd kind (by decide : ¬ "deliver" = "status")
  | live found pc => exact fun kind => absurd kind (by decide : ¬ "deliver" = "status")
  | ack found pc => exact fun kind => absurd kind (by decide : ¬ "ack" = "status")
  | forward found pc =>
    have promised := vouched.hands _ _ found
    rw [pc] at promised
    exact fun _ => promised

/-- A submission of the sender's is named when its frame is read. -/
theorem named_act {enqueuedAt now : Int} {wrote : Bool} {sub : Submission}
    (found : w.relay.clients c = some cl) (submitted : submits w.relay cl msg = some sub)
    (mine : Mine w c) :
    (sub.id, msg.clientRef) ∈
      (w.watch (.act (.at c (.frame (some msg) enqueuedAt now wrote)))).named := by
  simp only [watch_frame found, World.read, show (w.sockets c).isSome = true from mine,
    ↓reduceIte, submitted]
  exact List.mem_cons_self

/-- The acks a handler owes after a step. -/
theorem owed_act (answered : Answered w) (grows : Grows w { w.watch (.act a) with relay := s })
    (found : w.relay.clients c = some cl) {pc : Pc} (step : HandlerStep w.relay c cl a pc) :
    Owed { w.watch (.act a) with relay := s } (Mine w c) pc := by
  have before := answered.hands c cl found
  cases step with
  | stays _ => exact before.mono grows id
  | routes reading submitted stamped =>
    intro mine
    rw [stamped]
    exact named_act found submitted mine
  | queues reading submitted => exact fun mine => named_act found submitted mine
  | hears _ _ => trivial
  | accepts routing =>
    rw [routing] at before
    exact fun mine => grows.named (before mine)
  | acks _ => trivial
  | forwarded _ => trivial
  | panics _ _ => trivial
  | moves _ after _ =>
    cases pc with
    | routing _ _ _ => exact after.elim
    | acking _ _ => exact after.elim
    | _ => trivial

/-- The statuses a handler forwards after a step. -/
theorem promises_act (answered : Answered w) (vouched : Vouched w)
    (entitled : Entitled w (.relay (.act a)))
    (grows : Grows w { w.watch (.act a) with relay := s }) (found : w.relay.clients c = some cl)
    {pc : Pc} (step : HandlerStep w.relay c cl a pc) :
    Promises { w.watch (.act a) with relay := s } pc := by
  cases step with
  | stays _ => exact (vouched.hands c cl found).mono grows
  | routes _ _ _ => trivial
  | queues _ _ => trivial
  | hears reading forwards => exact confirmed_act answered entitled found forwards grows
  | accepts _ => trivial
  | acks _ => trivial
  | forwarded _ => trivial
  | panics _ _ => trivial
  | moves _ after _ =>
    cases pc with
    | forwarding _ _ => exact after.elim
    | _ => trivial

theorem newClient_placed (userID : String) (deviceID : Int64) :
    (∀ msg ∈ (newClient userID deviceID).out, msg ∈ (newClient userID deviceID).placed) ∧
      ∀ msg, (newClient userID deviceID).writer = .writing msg →
        msg ∈ (newClient userID deviceID).placed := by
  refine ⟨fun msg member => member, ?_⟩
  intro msg hand
  cases hand

/-- Everything in a channel or in the writer's hands was placed. -/
theorem placed_act {cl' : Client} (channel : ChannelStep w.relay a c cl cl')
    (before : (∀ msg ∈ cl.out, msg ∈ cl.placed) ∧ ∀ msg, cl.writer = .writing msg → msg ∈ cl.placed) :
    (∀ msg ∈ cl'.out, msg ∈ cl'.placed) ∧ ∀ msg, cl'.writer = .writing msg → msg ∈ cl'.placed := by
  obtain ⟨queued, writing⟩ := before
  cases channel with
  | rests out placed writer _ _ =>
    rw [out, placed, writer]
    exact ⟨queued, writing⟩
  | gains msg _ out placed writer =>
    rw [out, placed, writer]
    refine ⟨?_, fun msg' hand => List.mem_append_left _ (writing msg' hand)⟩
    intro msg' member
    exact (List.mem_append.mp member).elim (fun old => List.mem_append_left _ (queued msg' old))
      (List.mem_append_right _)
  | starts _ out placed _ writer =>
    rw [out, placed, writer]
    exact ⟨queued, fun msg hand => by cases hand⟩
  | takes msg _ out placed _ writer =>
    rw [out] at queued
    rw [placed, writer]
    refine ⟨fun msg' member => queued msg' (List.mem_cons_of_mem _ member), ?_⟩
    intro msg' hand
    cases hand
    exact queued msg List.mem_cons_self
  | writes msg _ out placed _ writer =>
    rw [out, placed, writer]
    exact ⟨queued, fun msg hand => by cases hand⟩
  | fails _ out placed writer =>
    rw [out, placed, writer]
    exact ⟨queued, fun msg hand => by cases hand⟩
  | drained _ out placed _ _ _ writer =>
    rw [out, placed, writer]
    exact ⟨queued, fun msg hand => by cases hand⟩

/-- A frame placed on a channel was there or has just been sent. -/
theorem placed_or_sent {cl' : Client} (channel : ChannelStep w.relay a c cl cl')
    (member : msg ∈ cl'.placed) : msg ∈ cl.placed ∨ Sends w.relay a c msg := by
  cases channel with
  | gains msg' sends _ placed _ =>
    rw [placed] at member
    rcases List.mem_append.mp member with before | new
    · exact .inl before
    · exact .inr (List.mem_singleton.mp new ▸ sends)
  | rests _ placed _ _ _ => exact .inl (placed ▸ member)
  | starts _ _ placed _ _ => exact .inl (placed ▸ member)
  | takes _ _ _ placed _ _ => exact .inl (placed ▸ member)
  | writes _ _ _ placed _ _ => exact .inl (placed ▸ member)
  | fails _ _ placed _ => exact .inl (placed ▸ member)
  | drained _ _ placed _ _ _ _ => exact .inl (placed ▸ member)

/-- Only statuses are forwarded. -/
theorem forwarding_status (sound : Sound s) (c : ConnId) (cl : Client) (target : ConnId)
    (msg : RelayMessage) (found : s.clients c = some cl) (pc : cl.pc = .forwarding target msg) :
    msg.kind = "status" := by
  have handler := sound.handlers c cl found
  simpa only [HandlerSound, pc] using handler

/-- No step of the relay that gives a fresh id misleads the sender about its
submissions. -/
theorem act_answered (wired : Wired w.relay) (sound : Sound w.relay) (answered : Answered w)
    (fresh : Fresh w (.relay (.act a))) (moved : w.relay.step a = some s) :
    Answered { w.watch (.act a) with relay := s } := by
  have grows := grows_act moved
  obtain ⟨-, sockets, -, sender⟩ := watch_act w a
  have owner (c : ConnId) (mine : Mine { w.watch (.act a) with relay := s } c) : Mine w c :=
    mine_of_sockets (congrFun sockets c) mine
  refine ⟨?_, ?_, ?_, ?_, ?_, submitted_act answered fresh moved, ?_,
    delivered_act wired sound answered grows⟩
  · intro c cl' found'
    rcases step_client wired moved found' with ⟨_, _, rfl⟩ | ⟨cl, found, _, channel, _⟩
    · exact newClient_placed _ _
    · exact placed_act channel (answered.placed c cl found)
  · intro c cl' found' msg member
    rcases step_client wired moved found' with ⟨_, _, rfl⟩ | ⟨cl, found, _, channel, _⟩
    · cases member
    · rcases placed_or_sent channel member with before | sends
      · exact (answered.frames c cl found msg before).mono grows (owner c)
      · exact (answers_of_sends (forwarding_status sound) answered sends).mono grows (owner c)
  · intro c cl' found'
    rcases step_client wired moved found' with ⟨_, _, rfl⟩ | ⟨cl, found, _, _, handler⟩
    · trivial
    · exact (owed_act answered grows found handler).mono (.same rfl rfl rfl rfl) (owner c)
  · intro socket msg member
    rcases watch_arriving member with before | ⟨c, cl, found, writer, mine⟩
    · exact (answered.arriving socket msg before).mono grows id
    · have placed := (answered.placed c cl found).2 msg writer
      have own : Mine w c := by rw [Mine, mine]; rfl
      exact (answered.frames c cl found msg placed).mono grows fun _ => own
  · intro id clientRef mapped
    rw [show (World.sender { w.watch (.act a) with relay := s }) = w.sender from sender] at mapped
    exact grows.named (answered.mapped id clientRef mapped)
  · intro id clientRef member
    rcases watch_named member with before |
      ⟨c, cl, msg, sub, _, _, _, rfl, found, submitted, rfl, -, -⟩
    · obtain ⟨sub, submitted, same⟩ := answered.named id clientRef before
      exact ⟨sub, grows.submissions submitted, same⟩
    · exact ⟨sub, submission_kept moved found submitted, rfl⟩

/-- No step of the relay that forwards entitled receipts misleads the sender
about its recipients. -/
theorem act_vouched (wired : Wired w.relay) (answered : Answered w) (vouched : Vouched w)
    (entitled : Entitled w (.relay (.act a))) (moved : w.relay.step a = some s) :
    Vouched { w.watch (.act a) with relay := s } := by
  have grows := grows_act moved
  obtain ⟨-, -, -, sender⟩ := watch_act w a
  refine ⟨?_, ?_, ?_, ?_⟩
  · intro c cl' found' msg member
    rcases step_client wired moved found' with ⟨_, _, rfl⟩ | ⟨cl, found, _, channel, _⟩
    · cases member
    · rcases placed_or_sent channel member with before | sends
      · exact (vouched.frames c cl found msg before).mono grows
      · exact (truthful_of_sends vouched sends).mono grows
  · intro c cl' found'
    rcases step_client wired moved found' with ⟨_, _, rfl⟩ | ⟨cl, found, _, _, handler⟩
    · trivial
    · exact promises_act answered vouched entitled grows found handler
  · intro socket msg member
    rcases watch_arriving member with before | ⟨c, cl, found, writer, _⟩
    · exact (vouched.arriving socket msg before).mono grows
    · exact (vouched.frames c cl found msg ((answered.placed c cl found).2 msg writer)).mono grows
  · intro clientRef status emitted
    rw [show (World.sender { w.watch (.act a) with relay := s }) = w.sender from sender] at emitted
    refine (vouched.emitted clientRef status emitted).imp id ?_
    rintro ⟨id, named, confirmed⟩
    exact ⟨id, grows.named named, confirmed.mono grows⟩

/-- A connection after the sender has dialled is new, or unchanged and as much
the sender's as before. -/
theorem dial_client {userID : String} {deviceID : Int64} {cl : Client} (wired : Wired w.relay)
    (found' : (w.relay.connect userID deviceID).clients c = some cl) :
    cl = newClient userID deviceID ∨ w.relay.clients c = some cl ∧
      Function.update w.sockets w.relay.nextConn (some w.nextSocket) c = w.sockets c := by
  rcases connect_found found' with new | before
  · exact .inl new
  · refine .inr ⟨before, Function.update_of_ne ?_ _ _⟩
    rintro rfl
    rw [wired.fresh _ (Nat.le_refl _)] at before
    cases before

theorem dial_answered (wired : Wired w.relay) (answered : Answered w) (userID : String)
    (deviceID : Int64) :
    Answered { w with
      relay := w.relay.connect userID deviceID
      sockets := Function.update w.sockets w.relay.nextConn (some w.nextSocket)
      nextSocket := w.nextSocket + 1 } := by
  refine ⟨?_, ?_, ?_, answered.arriving, answered.mapped, answered.submitted, answered.named,
    answered.delivered⟩
  · intro c cl found'
    rcases dial_client wired found' with rfl | ⟨before, _⟩
    · exact newClient_placed _ _
    · exact answered.placed c cl before
  · intro c cl found' msg member
    rcases dial_client wired found' with rfl | ⟨before, same⟩
    · cases member
    · refine (answered.frames c cl before msg member).mono (.same rfl rfl rfl rfl) fun mine => ?_
      exact mine_of_sockets same mine
  · intro c cl found'
    rcases dial_client wired found' with rfl | ⟨before, same⟩
    · trivial
    · refine (answered.hands c cl before).mono (.same rfl rfl rfl rfl) fun mine => ?_
      exact mine_of_sockets same mine

theorem dial_vouched (wired : Wired w.relay) (vouched : Vouched w) (userID : String)
    (deviceID : Int64) :
    Vouched { w with
      relay := w.relay.connect userID deviceID
      sockets := Function.update w.sockets w.relay.nextConn (some w.nextSocket)
      nextSocket := w.nextSocket + 1 } := by
  refine ⟨?_, ?_, vouched.arriving, vouched.emitted⟩
  · intro c cl found' msg member
    rcases dial_client wired found' with rfl | ⟨before, _⟩
    · cases member
    · exact vouched.frames c cl before msg member
  · intro c cl found'
    rcases dial_client wired found' with rfl | ⟨before, _⟩
    · trivial
    · exact vouched.hands c cl before

/-- What is left on a socket was there. -/
theorem mem_left {socket socket' : Nat} {rest : List RelayMessage} {msg' : RelayMessage}
    (arrived : w.arriving socket = msg :: rest)
    (member : msg' ∈ Function.update w.arriving socket rest socket') :
    ∃ socket, msg' ∈ w.arriving socket := by
  rw [Function.update_apply] at member
  split at member
  · exact ⟨socket, arrived ▸ List.mem_cons_of_mem _ member⟩
  · exact ⟨socket', member⟩

/-- The sender takes over the names the acks tell it. -/
theorem handle_answered {socket : Nat} {rest : List RelayMessage} (answered : Answered w)
    (arrived : w.arriving socket = msg :: rest) :
    Answered { w with
      sender := w.sender.listen msg
      arriving := Function.update w.arriving socket rest } := by
  have answers := answered.arriving socket msg (arrived ▸ List.mem_cons_self)
  refine ⟨answered.placed, answered.frames, answered.hands, ?_, ?_, answered.submitted,
    answered.named, answered.delivered⟩
  · intro socket' msg' member
    obtain ⟨_, before⟩ := mem_left arrived member
    exact answered.arriving _ msg' before
  · unfold Sender.listen
    split
    · exact answered.mapped
    · split
      · next ack =>
        unfold Sender.handleAck
        split
        · exact answered.mapped
        · intro id clientRef mapped
          simp only [Sender.emitStatus, FinMap.lookup_insert_apply] at mapped
          split at mapped
          · next same =>
            cases mapped
            rw [same]
            exact answers ack trivial
          · exact answered.mapped id clientRef mapped
      · split
        · unfold Sender.handleStatus
          split
          · split
            · exact answered.mapped
            · exact answered.mapped
          · exact answered.mapped
        · exact answered.mapped

/-- What the sender emits, it has a reason for. -/
theorem handle_vouched {socket : Nat} {rest : List RelayMessage} (answered : Answered w)
    (vouched : Vouched w) (arrived : w.arriving socket = msg :: rest) :
    Vouched { w with
      sender := w.sender.listen msg
      arriving := Function.update w.arriving socket rest } := by
  have truthful := vouched.arriving socket msg (arrived ▸ List.mem_cons_self)
  refine ⟨vouched.frames, vouched.hands, ?_, ?_⟩
  · intro socket' msg' member
    obtain ⟨_, before⟩ := mem_left arrived member
    exact vouched.arriving _ msg' before
  · unfold Sender.listen
    split
    · exact vouched.emitted
    · split
      · unfold Sender.handleAck
        split
        · exact vouched.emitted
        · intro clientRef status emitted
          rcases List.mem_cons.mp emitted with new | before
          · cases new
            exact .inl rfl
          · exact vouched.emitted clientRef status before
      · split
        · next kind =>
          unfold Sender.handleStatus
          split
          · next clientRef mapped =>
            split
            · exact vouched.emitted
            · intro ref status emitted
              rcases List.mem_cons.mp emitted with new | before
              · cases new
                exact .inr ⟨_, answered.mapped _ _ mapped, truthful kind⟩
              · exact vouched.emitted ref status before
          · exact vouched.emitted
        · exact vouched.emitted

/-- The relay of a world makes a run of its own. -/
theorem world_relay {ok : World → Act → Prop} (reached : world.Reached ok w) :
    service.Reachable w.relay := by
  refine reached.invariant (fun w => service.Reachable w.relay) ?_ ?_
  · rintro w ⟨relay, started, rfl⟩
    exact .start started
  · intro w act w' before _ moved
    cases act with
    | relay event =>
      obtain ⟨s, stepped, rfl⟩ := Option.map_eq_some_iff.mp moved
      exact .step before trivial stepped
    | dial userID deviceID =>
      cases moved
      exact .step (a := .act (.connect userID deviceID)) before trivial rfl
    | handle socket =>
      simp only [world] at moved
      split at moved
      · cases moved
      · cases moved
        exact before

theorem step_answered {act : Act} (wired : Wired w.relay) (sound : Sound w.relay)
    (answered : Answered w) (fresh : Fresh w act) (moved : world.step w act = some w') :
    Answered w' := by
  cases act with
  | relay event =>
    obtain ⟨s, stepped, rfl⟩ := Option.map_eq_some_iff.mp moved
    cases event with
    | act a => exact act_answered wired sound answered fresh stepped
    | restart pusher readable now =>
      -- the connections are gone, and with them all that was theirs
      cases stepped
      refine ⟨?_, ?_, ?_, answered.arriving, answered.mapped, answered.submitted, answered.named,
        answered.delivered⟩
      · intro c cl found
        cases found
      · intro c cl found
        cases found
      · intro c cl found
        cases found
  | dial userID deviceID =>
    cases moved
    exact dial_answered wired answered userID deviceID
  | handle socket =>
    simp only [world] at moved
    split at moved
    · cases moved
    · next msg rest arrived =>
      cases moved
      exact handle_answered answered arrived

theorem step_vouched {act : Act} (wired : Wired w.relay) (answered : Answered w)
    (vouched : Vouched w) (entitled : Entitled w act) (moved : world.step w act = some w') :
    Vouched w' := by
  cases act with
  | relay event =>
    obtain ⟨s, stepped, rfl⟩ := Option.map_eq_some_iff.mp moved
    cases event with
    | act a => exact act_vouched wired answered vouched entitled stepped
    | restart pusher readable now =>
      cases stepped
      refine ⟨?_, ?_, vouched.arriving, vouched.emitted⟩
      · intro c cl found
        cases found
      · intro c cl found
        cases found
  | dial userID deviceID =>
    cases moved
    exact dial_vouched wired vouched userID deviceID
  | handle socket =>
    simp only [world] at moved
    split at moved
    · cases moved
    · next msg rest arrived =>
      cases moved
      exact handle_vouched answered vouched arrived

theorem started_answered (w : World) (start : world.start w) : Answered w := by
  obtain ⟨relay, ⟨path, pusher, rfl⟩, rfl⟩ := start
  refine ⟨?_, ?_, ?_, ?_, ?_, List.nodup_nil, ?_, ?_⟩
  · intro c cl found
    cases found
  · intro c cl found
    cases found
  · intro c cl found
    cases found
  · intro socket msg member
    cases member
  · intro id clientRef mapped
    cases mapped
  · intro id clientRef member
    cases member
  · intro d member
    cases member

theorem started_vouched (w : World) (start : world.start w) : Vouched w := by
  obtain ⟨relay, ⟨path, pusher, rfl⟩, rfl⟩ := start
  refine ⟨?_, ?_, ?_, ?_⟩
  · intro c cl found
    cases found
  · intro c cl found
    cases found
  · intro socket msg member
    cases member
  · intro clientRef status emitted
    cases emitted

/-- While no id is given twice, the sender is not misled about its submissions. -/
theorem reached_answered (reached : world.Reached Fresh w) : Answered w := by
  have known (w : World) (reached : world.Reached Fresh w) : Wired w.relay ∧ Sound w.relay :=
    reachable_sound (world_relay reached)
  refine reached.invariant_under Answered known started_answered ?_
  rintro w act w' ⟨wired, sound⟩ answered fresh moved
  exact step_answered wired sound answered fresh moved

theorem reached_vouched (reached : world.Reached Honest w) : Answered w ∧ Vouched w := by
  have known (w : World) (reached : world.Reached Honest w) : Wired w.relay ∧ Answered w :=
    ⟨(reachable_sound (world_relay reached)).1,
      reached_answered (reached.weaken fun _ _ honest => honest.1)⟩
  refine ⟨(known w reached).2, reached.invariant_under Vouched known started_vouched ?_⟩
  rintro w act w' ⟨wired, answered⟩ vouched honest moved
  exact step_vouched wired answered vouched honest.2 moved

/-- **Receipts are the recipient's.** In every run in which the relay forwards
receipts of devices that were delivered an envelope of the id they name, and
gives no id twice, a message that the sender's client reports as delivered or
read is one whose envelope was delivered to the device it was addressed to, and
that device sent a receipt for it with this status. -/
theorem reported_statuses_are_the_recipients (reached : world.Reached Honest w)
    {clientRef : String} (emitted : (clientRef, status) ∈ w.sender.emitted)
    (reported : status = "delivered" ∨ status = "read") :
    ∃ sub ∈ w.relay.submissions, (sub.id, clientRef) ∈ w.named ∧
      (∀ other ∈ w.relay.submissions, other.id = sub.id → other = sub) ∧
      DeliveredTo w sub ∧ ReceiptedBy w sub status := by
  obtain ⟨answered, vouched⟩ := reached_vouched reached
  have not_sent : status ≠ "sent" := by
    rintro rfl
    rcases reported with same | same
    · exact absurd same (by decide)
    · exact absurd same (by decide)
  obtain ⟨id, named, sub, submitted, rfl, delivered, receipted⟩ :=
    (vouched.emitted clientRef status emitted).resolve_left not_sent
  refine ⟨sub, submitted, named, ?_, delivered, receipted⟩
  intro other member same
  exact List.inj_on_of_nodup_map answered.submitted member submitted same

/-- The sender's message, under the name its application knows it by. -/
def message : RelayMessage := { letterToBob with clientRef := "m1" }

def receiptFor (id status : String) : RelayMessage where
  kind := "receipt"
  envelopeID := id
  status := status
  targetID := "alice"
  targetDevice := 1

def moves (c : ConnId) (list : List Move) : List Act :=
  list.map fun move => .relay (.act (.at c move))

/-- alice's message reaches bob, who confirms its delivery. -/
def confirmedByBob : List Act :=
  [.dial "alice" 1, .relay (.act (.connect "bob" 1))] ++
  moves 0 [.register 0 true, .startWriter] ++ moves 1 [.register 0 true, .startWriter] ++
  moves 0 [.frame (some message) 1 1 true, .sendLive, .ack 1, .take, .write true] ++ [.handle 0] ++
  moves 1 [.take, .write true, .frame (some (receiptFor "env-1" "delivered")) 2 2 true, .forward] ++
  moves 0 [.take, .write true] ++ [.handle 0]

theorem bobs_receipt_is_reported : ∃ w, world.Reached Honest w ∧
    ("m1", "delivered") ∈ w.sender.emitted ∧
    ∃ sub ∈ w.relay.submissions, (sub.id, "m1") ∈ w.named ∧
      (∀ other ∈ w.relay.submissions, other.id = sub.id → other = sub) ∧
      DeliveredTo w sub ∧ ReceiptedBy w sub "delivered" := by
  let begun : World := { relay := started (newHub "" false) none }
  have observed : (world.checkedRun Honest begun confirmedByBob).map (fun w => w.sender.emitted) =
      some [("m1", "delivered"), ("m1", "sent")] := by decide +kernel
  have start : world.start begun := ⟨_, ⟨"", false, rfl⟩, rfl⟩
  obtain ⟨w, reached, seen⟩ := Machine.reached_of_observed observed (.start start)
  have emitted : ("m1", "delivered") ∈ w.sender.emitted := by rw [seen]; exact List.mem_cons_self
  exact ⟨w, reached, emitted, reported_statuses_are_the_recipients reached emitted (.inl rfl)⟩

/-- bob is offline; mallory, who was sent nothing, confirms the first envelope. -/
def confirmedByMallory : List Act :=
  [.dial "alice" 1] ++
  moves 0 [.register 0 true, .startWriter, .frame (some message) 1 1 true, .ack 1, .take,
    .write true] ++ [.handle 0, .relay (.act (.connect "mallory" 1))] ++
  moves 1 [.register 2 true, .startWriter, .frame (some (receiptFor "env-1" "read")) 3 3 true,
    .forward] ++ moves 0 [.take, .write true] ++ [.handle 0]

/-- alice's client reports a message as read that was delivered to nobody and
that bob has sent no receipt for. -/
theorem forged_receipt_is_reported : ∃ w, world.Reachable w ∧
    ("m1", "read") ∈ w.sender.emitted ∧
    ∀ sub ∈ w.relay.submissions, ¬ DeliveredTo w sub ∧ ¬ ReceiptedBy w sub "read" := by
  let begun : World := { relay := started (newHub "" false) none }
  have observed : (world.run begun confirmedByMallory).map (fun w =>
      (w.sender.emitted, w.delivered, w.receipts.map (·.userID),
        w.relay.submissions.map (·.envelope.recipientID))) =
      some ([("m1", "read"), ("m1", "sent")], [], ["mallory"], ["bob"]) := by decide +kernel
  have start : world.start begun := ⟨_, ⟨"", false, rfl⟩, rfl⟩
  obtain ⟨w, reachable, seen⟩ := Machine.reachable_of_observed observed start
  simp only [Prod.mk.injEq] at seen
  obtain ⟨emitted, delivered, confirmers, recipients⟩ := seen
  refine ⟨w, reachable, ?_, ?_⟩
  · rw [emitted]
    exact List.mem_cons_self
  · intro sub member
    have bob : sub.envelope.recipientID = "bob" := by
      have listed := List.mem_map_of_mem (f := fun sub => sub.envelope.recipientID) member
      rw [recipients] at listed
      exact List.mem_singleton.mp listed
    refine ⟨?_, ?_⟩
    · rintro ⟨d, inside, _⟩
      rw [delivered] at inside
      cases inside
    · rintro ⟨r, inside, user, _⟩
      have listed := List.mem_map_of_mem (f := fun r => r.userID) inside
      rw [confirmers, List.mem_singleton, user, bob] at listed
      exact absurd listed (by decide)

end Hwfa.RelayReceipts
