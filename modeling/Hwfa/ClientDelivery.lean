import Hwfa.Machines
import Hwfa.Maps

/-!
What happens to an envelope that arrives at `HwfaClient`
(`packages/client/src/relay.ts`, `handleDeliver` of `client.ts`).

The message listener hands the envelope to `handleDeliver`, which runs up to its
await of `decrypt`, and then sends the receipt in the same turn.  Decryption
answers in a later turn; the scam detector and the text handlers run in that
turn, and nothing but what they call runs between them.  They may do anything an
application can do: register handlers, close and open connections, send read
receipts, throw.

What `decrypt` and the detector say is supplied by the step.  Frames that are
not deliveries have no part here.
-/

namespace Hwfa.ClientDelivery

open Hwfa.Machines Hwfa.Maps

/-- What the receiving client reads of an envelope. -/
structure Envelope where
  id : String
  senderId : String
  senderDevice : Int
  type : Int
  ciphertext : String
  deriving DecidableEq

/-- A frame of the relay, as the listener tells them apart. -/
inductive Frame where
  | deliver (envelope : Option Envelope)
  | other

/-- A receipt frame; `kind` is always `"receipt"`. -/
structure Receipt where
  envelopeId : String
  status : String
  targetId : String
  targetDevice : Int
  deriving DecidableEq

/-- The receipt of the message listener. -/
def receiptFor (env : Envelope) : Receipt where
  envelopeId := env.id
  status := "delivered"
  targetId := env.senderId
  targetDevice := env.senderDevice

/-- What a text handler is called with; `Verdict` is what the detector returns. -/
structure IncomingText (Verdict : Type) where
  fromUserId : String
  fromDevice : Int
  text : String
  receivedAt : Int
  envelopeId : String
  verdict : Verdict
  deriving DecidableEq

/-- A text handler, by name: one function may be registered twice. -/
abbrev Handler := Nat

/-- Where a `handleDeliver` is. -/
inductive Stage (Verdict : Type) where
  | decrypting
  /-- in the loop over the handlers, before the one of this index -/
  | dispatching (msg : IncomingText Verdict) (next : Nat)
  /-- `decrypt` rejected -/
  | rejected
  /-- the scam detector threw -/
  | undetected (text : String)
  /-- the handler of this index threw -/
  | threw (msg : IncomingText Verdict) (index : Nat)
  /-- the loop came to its end, with these handlers registered -/
  | handled (msg : IncomingText Verdict) (registered : List Handler)
  deriving DecidableEq

structure Delivery (Verdict : Type) where
  env : Envelope
  stage : Stage Verdict
  /-- history: the handlers called for this envelope, and with what -/
  calls : List (Handler × IncomingText Verdict) := []
  deriving DecidableEq

structure Receiver (Verdict : Type) where
  textHandlers : List Handler := []
  peerDevice : FinMap String Int := ∅
  /-- the connections whose `ws` is set -/
  attached : FinMap Nat Unit := ∅
  connections : Nat := 0
  deliveries : FinMap Nat (Delivery Verdict) := ∅
  tasks : Nat := 0
  /-- the delivery whose handlers are being called in this turn -/
  running : Option Nat := none
  /-- history: the receipts given to a socket -/
  sent : List Receipt := []

variable {Verdict : Type}

/-- What an application, or one of its handlers, does to the client. -/
inductive AppCall where
  | onText (handler : Handler)
  | connect
  | close (connection : Nat)
  | sendReadReceipt (connection : Nat) (envelopeId targetId : String) (targetDevice : Int)

def Receiver.perform (c : Receiver Verdict) : AppCall → Receiver Verdict
  | .onText handler => { c with textHandlers := c.textHandlers ++ [handler] }
  | .connect =>
    { c with attached := c.attached.insert c.connections (), connections := c.connections + 1 }
  | .close connection => { c with attached := c.attached.erase connection }
  | .sendReadReceipt connection envelopeId targetId targetDevice =>
    if (c.attached.lookup connection).isSome then
      { c with sent := ⟨envelopeId, "read", targetId, targetDevice⟩ :: c.sent }
    else c

def Receiver.setDelivery (c : Receiver Verdict) (t : Nat) (d : Delivery Verdict) :
    Receiver Verdict :=
  { c with deliveries := c.deliveries.insert t d }

/-- The message listener: `send` throws when the connection has been closed or
the socket does, and the envelope is in the hands of `handleDeliver` by then. -/
def Receiver.message (c : Receiver Verdict) (connection : Nat) (frame : Frame) (writes : Bool) :
    Receiver Verdict :=
  match frame with
  | .deliver (some env) =>
    { c.setDelivery c.tasks { env := env, stage := .decrypting } with
      tasks := c.tasks + 1
      sent :=
        if (c.attached.lookup connection).isSome && writes then receiptFor env :: c.sent else c.sent }
  | _ => c

/-- `handleDeliver` from its await to the head of its loop. -/
def Receiver.decrypted (c : Receiver Verdict) (t : Nat) (d : Delivery Verdict)
    (reply : Option String) (now : Int) (verdict : Option Verdict) : Receiver Verdict :=
  match reply with
  | none => c.setDelivery t { d with stage := .rejected }
  | some text =>
    let learned := { c with
      peerDevice :=
        if (c.peerDevice.lookup d.env.senderId).isSome then c.peerDevice
        else c.peerDevice.insert d.env.senderId d.env.senderDevice }
    match verdict with
    | none => learned.setDelivery t { d with stage := .undetected text }
    | some verdict =>
      let msg := ⟨d.env.senderId, d.env.senderDevice, text, now, d.env.id, verdict⟩
      { learned.setDelivery t { d with stage := .dispatching msg 0 } with running := some t }

/-- One round of the loop over `textHandlers`, which sees what the handlers add
to it. -/
def Receiver.round (c : Receiver Verdict) (t : Nat) (d : Delivery Verdict)
    (msg : IncomingText Verdict) (next : Nat) (calls : List AppCall) (throws : Bool) :
    Receiver Verdict :=
  match c.textHandlers[next]? with
  | none => { c.setDelivery t { d with stage := .handled msg c.textHandlers } with
      running := none }
  | some handler =>
    let called := calls.foldl Receiver.perform c
    let d := { d with calls := d.calls ++ [(handler, msg)] }
    if throws then
      { called.setDelivery t { d with stage := .threw msg next } with running := none }
    else called.setDelivery t { d with stage := .dispatching msg (next + 1) }

inductive Action (Verdict : Type) where
  | app (call : AppCall)
  | message (connection : Nat) (frame : Frame) (writes : Bool)
  | decrypted (t : Nat) (reply : Option String) (now : Int) (verdict : Option Verdict)
  | round (calls : List AppCall) (throws : Bool)

def Receiver.step (c : Receiver Verdict) : Action Verdict → Option (Receiver Verdict)
  | .app call => if c.running.isNone then some (c.perform call) else none
  | .message connection frame writes =>
    if c.running.isNone then some (c.message connection frame writes) else none
  | .decrypted t reply now verdict =>
    if c.running.isNone then
      (c.deliveries.lookup t).bind fun d =>
        match d.stage with
        | .decrypting => some (c.decrypted t d reply now verdict)
        | _ => none
    else none
  | .round calls throws =>
    c.running.bind fun t =>
      (c.deliveries.lookup t).bind fun d =>
        match d.stage with
        | .dispatching msg next => some (c.round t d msg next calls throws)
        | _ => none

def receiver (Verdict : Type) : Machine (Receiver Verdict) (Action Verdict) where
  start c := c = {}
  step := Receiver.step

/-! ## What became of an envelope -/

/-- The text is the envelope's. -/
def Reads (env : Envelope) (msg : IncomingText Verdict) : Prop :=
  msg.fromUserId = env.senderId ∧ msg.fromDevice = env.senderDevice ∧ msg.envelopeId = env.id

/-- The first handlers, each called once with the text, in order. -/
def called (handlers : List Handler) (count : Nat) (msg : IncomingText Verdict) :
    List (Handler × IncomingText Verdict) :=
  (handlers.take count).map (·, msg)

/-- What has been done with an envelope that was handed to `decrypt`. -/
def Accounted (handlers : List Handler) (d : Delivery Verdict) : Prop :=
  match d.stage with
  | .decrypting | .rejected | .undetected _ => d.calls = []
  | .dispatching msg next =>
    Reads d.env msg ∧ next ≤ handlers.length ∧ d.calls = called handlers next msg
  | .threw msg index =>
    Reads d.env msg ∧ index < handlers.length ∧ d.calls = called handlers (index + 1) msg
  | .handled msg registered =>
    Reads d.env msg ∧ registered <+: handlers ∧ d.calls = registered.map (·, msg)

/-- A loop that ends in this step ends at the last of the handlers there are. -/
def EndsAtTheLast (c c' : Receiver Verdict) : Prop :=
  ∀ t d msg registered, c'.deliveries.lookup t = some d → d.stage = .handled msg registered →
    c.deliveries.lookup t = some d ∨ registered = c'.textHandlers

/-- What the receipts promise, if delivered meant decrypted and handled. -/
def DeliveredMeansHandled (c : Receiver Verdict) : Prop :=
  ∀ r ∈ c.sent, r.status = "delivered" → ∃ t d msg, c.deliveries.lookup t = some d ∧
    r = receiptFor d.env ∧ Reads d.env msg ∧ ∀ handler ∈ c.textHandlers, (handler, msg) ∈ d.calls

structure Consistent (c : Receiver Verdict) : Prop where
  fresh : ∀ t, c.tasks ≤ t → c.deliveries.lookup t = none
  accounted : ∀ t d, c.deliveries.lookup t = some d → Accounted c.textHandlers d
  receipts : ∀ r ∈ c.sent, r.status = "delivered" →
    ∃ t d, c.deliveries.lookup t = some d ∧ r = receiptFor d.env

variable {c c' : Receiver Verdict} {t : Nat} {d : Delivery Verdict} {msg : IncomingText Verdict}
variable {handlers handlers' : List Handler}

/-- Handlers that are registered later change nothing about earlier calls. -/
theorem called_grown {count : Nat} (grown : handlers <+: handlers')
    (within : count ≤ handlers.length) : called handlers' count msg = called handlers count msg := by
  obtain ⟨more, rfl⟩ := grown
  rw [called, List.take_append_of_le_length within, called]

theorem called_succ {next : Nat} {handler : Handler} (found : handlers[next]? = some handler) :
    called handlers (next + 1) msg = called handlers next msg ++ [(handler, msg)] := by
  rw [called, List.take_add_one, found, Option.toList_some, List.map_append]
  rfl

theorem Accounted.grow (accounted : Accounted handlers d) (grown : handlers <+: handlers') :
    Accounted handlers' d := by
  have longer := grown.length_le
  unfold Accounted at accounted ⊢
  split
  · next stage =>
    rw [stage] at accounted
    exact accounted
  · next stage =>
    rw [stage] at accounted
    exact accounted
  · next stage =>
    rw [stage] at accounted
    exact accounted
  · next msg next stage =>
    rw [stage] at accounted
    obtain ⟨reads, within, calls⟩ := accounted
    exact ⟨reads, by omega, calls.trans (called_grown grown within).symm⟩
  · next msg index stage =>
    rw [stage] at accounted
    obtain ⟨reads, within, calls⟩ := accounted
    exact ⟨reads, by omega, calls.trans (called_grown grown within).symm⟩
  · next msg registered stage =>
    rw [stage] at accounted
    obtain ⟨reads, within, calls⟩ := accounted
    exact ⟨reads, within.trans grown, calls⟩

/-! ## What a step keeps -/

/-- What the application does leaves the deliveries alone and sends no delivered
receipt. -/
structure Keeps (c c' : Receiver Verdict) : Prop where
  deliveries : c'.deliveries = c.deliveries
  tasks : c'.tasks = c.tasks
  handlers : c.textHandlers <+: c'.textHandlers
  receipts : ∀ r ∈ c'.sent, r ∈ c.sent ∨ r.status ≠ "delivered"

theorem Keeps.refl (c : Receiver Verdict) : Keeps c c :=
  ⟨rfl, rfl, List.prefix_rfl, fun _ member => .inl member⟩

theorem Keeps.trans {c'' : Receiver Verdict} (first : Keeps c c') (second : Keeps c' c'') :
    Keeps c c'' := by
  refine ⟨second.deliveries.trans first.deliveries, second.tasks.trans first.tasks,
    first.handlers.trans second.handlers, ?_⟩
  intro r member
  rcases second.receipts r member with before | other
  · exact first.receipts r before
  · exact .inr other

theorem perform_keeps (c : Receiver Verdict) (call : AppCall) : Keeps c (c.perform call) := by
  cases call with
  | onText handler => exact ⟨rfl, rfl, List.prefix_append _ _, fun _ member => .inl member⟩
  | connect => exact ⟨rfl, rfl, List.prefix_rfl, fun _ member => .inl member⟩
  | close connection => exact ⟨rfl, rfl, List.prefix_rfl, fun _ member => .inl member⟩
  | sendReadReceipt connection envelopeId targetId targetDevice =>
    simp only [Receiver.perform]
    split
    · refine ⟨rfl, rfl, List.prefix_rfl, ?_⟩
      intro r member
      rcases List.mem_cons.mp member with rfl | before
      · exact .inr (by simp)
      · exact .inl before
    · exact .refl c

theorem performs_keeps (c : Receiver Verdict) (calls : List AppCall) :
    Keeps c (calls.foldl Receiver.perform c) := by
  induction calls generalizing c with
  | nil => exact .refl c
  | cons call rest ih => exact (perform_keeps c call).trans (ih _)

theorem Consistent.keep (consistent : Consistent c) (keeps : Keeps c c') : Consistent c' := by
  refine ⟨?_, ?_, ?_⟩
  · rw [keeps.deliveries, keeps.tasks]
    exact consistent.fresh
  · intro t d found
    rw [keeps.deliveries] at found
    exact (consistent.accounted t d found).grow keeps.handlers
  · intro r member delivered
    rw [keeps.deliveries]
    rcases keeps.receipts r member with before | other
    · exact consistent.receipts r before delivered
    · exact absurd delivered other

/-- A delivery moves on, with its envelope. -/
theorem Consistent.set (consistent : Consistent c) (found : c.deliveries.lookup t = some d)
    (d' : Delivery Verdict) (env : d'.env = d.env) (accounted : Accounted c.textHandlers d')
    (deliveries : c'.deliveries = (c.setDelivery t d').deliveries) (tasks : c'.tasks = c.tasks)
    (handlers : c'.textHandlers = c.textHandlers) (sent : c'.sent = c.sent) : Consistent c' := by
  have lookup (t' : Nat) :
      c'.deliveries.lookup t' = if t' = t then some d' else c.deliveries.lookup t' := by
    rw [deliveries, Receiver.setDelivery, FinMap.lookup_insert_apply]
  refine ⟨?_, ?_, ?_⟩
  · intro t' beyond
    rw [tasks] at beyond
    rw [lookup, if_neg, consistent.fresh t' beyond]
    rintro rfl
    rw [consistent.fresh t' beyond] at found
    cases found
  · intro t' d₁ found'
    rw [lookup] at found'
    rw [handlers]
    split at found'
    · cases found'
      exact accounted
    · exact consistent.accounted t' d₁ found'
  · intro r member delivered
    rw [sent] at member
    obtain ⟨t', d₁, found', same⟩ := consistent.receipts r member delivered
    by_cases own : t' = t
    · subst own
      rw [found] at found'
      cases found'
      exact ⟨t', d', by rw [lookup, if_pos rfl], by rw [same, receiptFor, receiptFor, env]⟩
    · exact ⟨t', d₁, by rw [lookup, if_neg own, found'], same⟩

theorem message_consistent (consistent : Consistent c) (connection : Nat) (frame : Frame)
    (writes : Bool) : Consistent (c.message connection frame writes) := by
  unfold Receiver.message
  split
  · next env =>
    refine ⟨?_, ?_, ?_⟩
    · intro t beyond
      have later : c.tasks + 1 ≤ t := beyond
      rw [Receiver.setDelivery, FinMap.lookup_insert_apply, if_neg (by omega)]
      exact consistent.fresh t (by omega)
    · intro t d found
      rw [Receiver.setDelivery, FinMap.lookup_insert_apply] at found
      split at found
      · cases found
        exact rfl
      · exact consistent.accounted t d found
    · intro r member delivered
      have before (sent : r ∈ c.sent) : ∃ t d, (c.setDelivery c.tasks
          { env := env, stage := .decrypting }).deliveries.lookup t = some d ∧ r = receiptFor d.env := by
        obtain ⟨t, d, found, same⟩ := consistent.receipts r sent delivered
        refine ⟨t, d, ?_, same⟩
        rw [Receiver.setDelivery, FinMap.lookup_insert_apply, if_neg, found]
        rintro rfl
        rw [consistent.fresh _ (Nat.le_refl _)] at found
        cases found
      simp only at member
      split at member
      · rcases List.mem_cons.mp member with rfl | sent
        · exact ⟨c.tasks, _, by rw [Receiver.setDelivery, FinMap.lookup_insert_apply, if_pos rfl], rfl⟩
        · exact before sent
      · exact before member
  · exact consistent

theorem decrypted_consistent (consistent : Consistent c) (found : c.deliveries.lookup t = some d)
    (stage : d.stage = .decrypting) (reply : Option String) (now : Int) (verdict : Option Verdict) :
    Consistent (c.decrypted t d reply now verdict) := by
  have uncalled : d.calls = [] := by
    have accounted := consistent.accounted t d found
    rwa [Accounted, stage] at accounted
  unfold Receiver.decrypted
  split
  · exact consistent.set found { d with stage := .rejected } rfl uncalled rfl rfl rfl rfl
  · next text =>
    simp only
    split
    · exact consistent.set found { d with stage := .undetected text } rfl uncalled rfl rfl rfl rfl
    · next verdict =>
      refine consistent.set found { d with stage := .dispatching _ 0 } rfl ?_ rfl rfl rfl rfl
      exact ⟨⟨rfl, rfl, rfl⟩, Nat.zero_le _, uncalled⟩

theorem round_consistent {next : Nat} (consistent : Consistent c)
    (found : c.deliveries.lookup t = some d) (stage : d.stage = .dispatching msg next)
    (calls : List AppCall) (throws : Bool) : Consistent (c.round t d msg next calls throws) := by
  have accounted := consistent.accounted t d found
  rw [Accounted, stage] at accounted
  obtain ⟨reads, within, before⟩ := accounted
  unfold Receiver.round
  split
  · next last =>
    have all : next = c.textHandlers.length := by
      have := List.getElem?_eq_none_iff.mp last
      omega
    refine consistent.set found { d with stage := .handled msg c.textHandlers }
      rfl ?_ rfl rfl rfl rfl
    refine ⟨reads, List.prefix_rfl, ?_⟩
    rw [before, called, all, List.take_length]
  · next handler called_now =>
    have keeps := performs_keeps c calls
    have kept := consistent.keep keeps
    have found' : (calls.foldl Receiver.perform c).deliveries.lookup t = some d := by
      rw [keeps.deliveries, found]
    have inside : next < c.textHandlers.length := (List.getElem?_eq_some_iff.mp called_now).1
    have longer := keeps.handlers.length_le
    have calls_now : d.calls ++ [(handler, msg)] =
        called (calls.foldl Receiver.perform c).textHandlers (next + 1) msg := by
      rw [called_grown keeps.handlers (by omega), called_succ called_now, before]
    simp only
    split
    · exact kept.set found'
        { d with calls := d.calls ++ [(handler, msg)], stage := .threw msg next } rfl
        ⟨reads, by omega, calls_now⟩ rfl rfl rfl rfl
    · exact kept.set found'
        { d with calls := d.calls ++ [(handler, msg)], stage := .dispatching msg (next + 1) }
        rfl ⟨reads, by omega, calls_now⟩ rfl rfl rfl rfl

theorem step_consistent {a : Action Verdict} (consistent : Consistent c)
    (moved : c.step a = some c') : Consistent c' := by
  cases a with
  | app call =>
    simp only [Receiver.step, Option.ite_none_right_eq_some, Option.some.injEq] at moved
    obtain ⟨-, rfl⟩ := moved
    exact consistent.keep (perform_keeps c call)
  | message connection frame writes =>
    simp only [Receiver.step, Option.ite_none_right_eq_some, Option.some.injEq] at moved
    obtain ⟨-, rfl⟩ := moved
    exact message_consistent consistent connection frame writes
  | decrypted t reply now verdict =>
    simp only [Receiver.step, Option.ite_none_right_eq_some, Option.bind_eq_some_iff] at moved
    obtain ⟨-, d, found, moved⟩ := moved
    split at moved
    · next stage =>
      cases moved
      exact decrypted_consistent consistent found stage reply now verdict
    · cases moved
  | round calls throws =>
    simp only [Receiver.step, Option.bind_eq_some_iff] at moved
    obtain ⟨t, -, d, found, moved⟩ := moved
    split at moved
    · next msg next stage =>
      cases moved
      exact round_consistent consistent found stage calls throws
    · cases moved

theorem reached_consistent (reached : (receiver Verdict).Reachable c) : Consistent c := by
  refine reached.invariant Consistent ?_ ?_
  · rintro c rfl
    refine ⟨fun t _ => rfl, ?_, ?_⟩
    · intro t d found
      cases found
    · intro r member
      cases member
  · intro c a c' consistent _ moved
    exact step_consistent consistent moved

/-! ## Where a loop ends -/

theorem endsAtTheLast_of_eq (deliveries : c'.deliveries = c.deliveries) : EndsAtTheLast c c' := by
  intro t d msg registered found _
  exact .inl (deliveries ▸ found)

/-- Only the delivery that is set can have ended. -/
theorem endsAtTheLast_of_set (d' : Delivery Verdict)
    (deliveries : c'.deliveries = (c.setDelivery t d').deliveries)
    (ended : ∀ msg registered, d'.stage = .handled msg registered → registered = c'.textHandlers) :
    EndsAtTheLast c c' := by
  intro t' d msg registered found stage
  rw [deliveries, Receiver.setDelivery, FinMap.lookup_insert_apply] at found
  split at found
  · cases found
    exact .inr (ended msg registered stage)
  · exact .inl found

theorem decrypted_endsAtTheLast (c : Receiver Verdict) (t : Nat) (d : Delivery Verdict)
    (reply : Option String) (now : Int) (verdict : Option Verdict) :
    EndsAtTheLast c (c.decrypted t d reply now verdict) := by
  unfold Receiver.decrypted
  split
  · exact endsAtTheLast_of_set { d with stage := .rejected } rfl nofun
  · next text =>
    simp only
    split
    · exact endsAtTheLast_of_set { d with stage := .undetected text } rfl nofun
    · exact endsAtTheLast_of_set { d with stage := .dispatching _ 0 } rfl nofun

theorem round_endsAtTheLast (c : Receiver Verdict) (t : Nat) (d : Delivery Verdict)
    (msg : IncomingText Verdict) (next : Nat) (calls : List AppCall) (throws : Bool) :
    EndsAtTheLast c (c.round t d msg next calls throws) := by
  unfold Receiver.round
  split
  · refine endsAtTheLast_of_set { d with stage := .handled msg c.textHandlers } rfl ?_
    intro msg' registered stage
    cases stage
    rfl
  · next handler _ =>
    -- what the handler itself does sets no delivery
    have same (d' : Delivery Verdict) :
        ((calls.foldl Receiver.perform c).setDelivery t d').deliveries =
          (c.setDelivery t d').deliveries := by
      rw [Receiver.setDelivery, (performs_keeps c calls).deliveries, Receiver.setDelivery]
    simp only
    split
    · exact endsAtTheLast_of_set
        { d with calls := d.calls ++ [(handler, msg)], stage := .threw msg next } (same _) nofun
    · exact endsAtTheLast_of_set
        { d with calls := d.calls ++ [(handler, msg)], stage := .dispatching msg (next + 1) }
        (same _) nofun

theorem step_endsAtTheLast {a : Action Verdict} (moved : c.step a = some c') :
    EndsAtTheLast c c' := by
  cases a with
  | app call =>
    simp only [Receiver.step, Option.ite_none_right_eq_some, Option.some.injEq] at moved
    obtain ⟨-, rfl⟩ := moved
    exact endsAtTheLast_of_eq (perform_keeps c call).deliveries
  | message connection frame writes =>
    simp only [Receiver.step, Option.ite_none_right_eq_some, Option.some.injEq] at moved
    obtain ⟨-, rfl⟩ := moved
    unfold Receiver.message
    split
    · exact endsAtTheLast_of_set { env := _, stage := .decrypting } rfl nofun
    · exact endsAtTheLast_of_eq rfl
  | decrypted t reply now verdict =>
    simp only [Receiver.step, Option.ite_none_right_eq_some, Option.bind_eq_some_iff] at moved
    obtain ⟨-, d, -, moved⟩ := moved
    split at moved
    · cases moved
      exact decrypted_endsAtTheLast c t d reply now verdict
    · cases moved
  | round calls throws =>
    simp only [Receiver.step, Option.bind_eq_some_iff] at moved
    obtain ⟨t, -, d, -, moved⟩ := moved
    split at moved
    · next msg next _ =>
      cases moved
      exact round_endsAtTheLast c t d msg next calls throws
    · cases moved

def hello : Envelope where
  id := "env-1"
  senderId := "alice"
  senderDevice := 1
  type := 3
  ciphertext := "AAEC"

/-- One handler is registered when the envelope arrives. -/
def arrival : List (Action Unit) :=
  [.app (.onText 7), .app .connect, .message 0 (.deliver (some hello)) true]

/-- What the one handler is called with. -/
def greeting : IncomingText Unit where
  fromUserId := "alice"
  fromDevice := 1
  text := "hi"
  receivedAt := 1
  envelopeId := "env-1"
  verdict := ()

end Hwfa.ClientDelivery
