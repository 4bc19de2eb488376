import Hwfa.Machines
import Hwfa.RelayHub

/-!
The running relay: every connection's handler goroutine and writer goroutine
(`backend/relay/client.go`, the `/v1/relay` handler of `main.go`) over the hub.

One action is one atomic piece of one goroutine: a critical section of the hub's
mutex, one channel operation, one socket operation.  What a goroutine has
captured between two of them (the drained copy of `register`, the target that
`route` and `forwardStatus` took under the lock) is in its program counter, so a
schedule of actions is an interleaving of the goroutines.

`accepted`, `pruned` and `submissions` and the clients' `placed` and `written`
are histories that no action reads.
-/

namespace Hwfa.RelayProcess

open Hwfa.Machines Hwfa.RelayEnvelope Hwfa.RelayHub

/-- Where a connection's handler goroutine stands. -/
inductive Pc where
  /-- before the critical section of `register` -/
  | registering
  /-- in the loop of `register` over its drained copy -/
  | flushing (pending : List QueuedEnvelope)
  /-- at `ReadMessage` -/
  | reading
  /-- in `route`, past the critical section, about to send to the target it captured -/
  | routing (target : ConnId) (env : Envelope) (clientRef : String)
  /-- `route` has returned, about to send the ack -/
  | acking (id clientRef : String)
  /-- in `forwardStatus`, past the critical section, about to send -/
  | forwarding (target : ConnId) (msg : RelayMessage)
  /-- the deferred function of `readPump`, before its three steps -/
  | leaving
  | unregistered
  | channelClosed
  /-- the handler has returned or panicked -/
  | gone
  deriving DecidableEq

/-- Where a connection's writer goroutine stands. -/
inductive Writer where
  | unstarted
  | ranging
  | writing (msg : RelayMessage)
  | returned
  deriving DecidableEq

/-- `client.go::Client` with its two goroutines. -/
structure Client where
  userID : String
  deviceID : Int64
  routeKey : String
  out : List RelayMessage := []
  outClosed : Bool := false
  socketOpen : Bool := true
  pc : Pc := .registering
  writer : Writer := .unstarted
  /-- history: everything `out` has ever accepted -/
  placed : List RelayMessage := []
  /-- history: everything written to the socket -/
  written : List RelayMessage := []

/-- `make(chan RelayMessage, 64)`. -/
def outCapacity : Nat := 64

/-- `client.go::newClient`. -/
def newClient (userID : String) (deviceID : Int64) : Client where
  userID := userID
  deviceID := deviceID
  routeKey := RelayEnvelope.routeKey userID deviceID

/-- `Client.send`: `none` is the panic of sending on a closed channel; a full
channel drops the message. -/
def Client.send (cl : Client) (msg : RelayMessage) : Option Client :=
  if cl.outClosed then none
  else if cl.out.length < outCapacity then
    some { cl with out := cl.out ++ [msg], placed := cl.placed ++ [msg] }
  else some cl

/-- The frame that carries an envelope to its recipient. -/
def deliver (env : Envelope) : RelayMessage := { kind := "deliver", envelope := some env }

/-- One accepted `send` frame: who sent it, what it carried, which id it got. -/
structure Submission where
  userID : String
  deviceID : Int64
  envelope : Envelope
  id : String

/-- The relay process and its file. -/
structure Relay where
  hub : Hub
  disk : Option PersistedHub
  clients : ConnId → Option Client
  nextConn : ConnId
  submissions : List Submission := []
  /-- history: the envelopes whose `route` has returned -/
  accepted : List Envelope := []
  /-- history: what `pruneQueueLocked` removed -/
  pruned : List QueuedEnvelope := []

/-- A pointer to a `Client` is shared: a change to it is seen by everyone. -/
def Relay.modify (s : Relay) (c : ConnId) (f : Client → Client) : Relay :=
  { s with clients := Function.update s.clients c ((s.clients c).map f) }

def Relay.goto (s : Relay) (c : ConnId) (pc : Pc) : Relay := s.modify c fun cl => { cl with pc := pc }

/-- `target.send(msg)`; `none` is its panic. -/
def Relay.send (s : Relay) (target : ConnId) (msg : RelayMessage) : Option Relay := do
  let cl ← s.clients target
  let cl ← cl.send msg
  some { s with clients := Function.update s.clients target (some cl) }

/-- A send from the handler of `c`.  A panic in `readPump` runs its deferred
function; a panic in `register` ends the handler, whose `readPump` has not been
entered. -/
def Relay.sendFrom (s : Relay) (c target : ConnId) (msg : RelayMessage)
    (sent : Relay → Relay) (panicked : Pc) : Relay :=
  match s.send target msg with
  | some s => sent s
  | none => s.goto c panicked

/-- What one goroutine of one connection does next; the arguments are what the
world supplies: the clock, the outcome of a file write, a frame, the outcome of
a socket write. -/
inductive Move where
  | register (now : Int) (wrote : Bool)
  | flush
  | startWriter
  | take
  | write (ok : Bool)
  | drained
  | frame (msg : Option RelayMessage) (enqueuedAt now : Int) (wrote : Bool)
  | sendLive
  | ack (acceptedAt : Int)
  | forward
  | readError
  | unregister
  | closeOut
  | closeConn
  | expire

/-- The authenticated sender identity replaces the claimed one. -/
def Client.stampSender (cl : Client) (envelope : Envelope) : Envelope :=
  { envelope with senderID := cl.userID, senderDevice := cl.deviceID }

/-- What `readPump` does with a `send` frame, up to the end of `route`'s
critical section. -/
def Relay.routeFrame (s : Relay) (c : ConnId) (cl : Client) (envelope : Envelope)
    (clientRef : String) (enqueuedAt now : Int) (wrote : Bool) : Relay :=
  let env := cl.stampSender envelope
  let routed := s.hub.route env enqueuedAt now wrote s.disk
  let counted := { s with
    hub := routed.hub
    disk := routed.disk
    submissions := ⟨cl.userID, cl.deviceID, envelope, routed.env.id⟩ :: s.submissions }
  match routed.target with
  | some target => counted.goto c (.routing target routed.env clientRef)
  | none =>
    let entry : QueuedEnvelope := { env := routed.env, enqueuedAt := enqueuedAt }
    let queued := { counted with
      accepted := routed.env :: s.accepted
      pruned := s.pruned ++ removed now (s.hub.queue env.key ++ [entry]) }
    queued.goto c (.acking routed.env.id clientRef)

/-- What `readPump` does with one decoded frame, up to its next send. -/
def Relay.readFrame (s : Relay) (c : ConnId) (cl : Client) (msg : RelayMessage)
    (enqueuedAt now : Int) (wrote : Bool) : Relay :=
  if msg.kind = "send" then
    match msg.envelope with
    | none => s
    | some envelope => s.routeFrame c cl envelope msg.clientRef enqueuedAt now wrote
  else if msg.kind = "register-push" then
    if msg.token ≠ "" then { s with hub := s.hub.registerPushToken cl.routeKey msg.token } else s
  else if msg.kind = "receipt" then
    if msg.targetID ≠ "" ∧ (msg.status = "delivered" ∨ msg.status = "read") then
      match s.hub.conns (RelayEnvelope.routeKey msg.targetID msg.targetDevice) with
      | some target =>
        s.goto c (.forwarding target
          { kind := "status", envelopeID := msg.envelopeID, status := msg.status })
      | none => s
    else s
  else s

/-- One atomic piece of connection `c`, whose record is `cl`. -/
def Relay.stepAt (s : Relay) (c : ConnId) (cl : Client) : Move → Option Relay
  | .register now wrote =>
    match cl.pc with
    | .registering =>
      let (hub, disk, pending) := s.hub.register c cl.routeKey now wrote s.disk
      let pruned := s.pruned ++ removed now (s.hub.queue cl.routeKey)
      some ({ s with hub := hub, disk := disk, pruned := pruned }.goto c (.flushing pending))
    | _ => none
  | .flush =>
    match cl.pc with
    | .flushing (qe :: rest) =>
      some (s.sendFrom c c (deliver qe.env) (·.goto c (.flushing rest)) .gone)
    | _ => none
  | .startWriter =>
    match cl.pc with
    | .flushing [] => some (s.modify c fun cl => { cl with pc := .reading, writer := .ranging })
    | _ => none
  | .take =>
    match cl.writer, cl.out with
    | .ranging, msg :: rest =>
      some (s.modify c fun cl => { cl with out := rest, writer := .writing msg })
    | _, _ => none
  | .write ok =>
    match cl.writer with
    | .writing msg =>
      if ok then
        if cl.socketOpen then
          some (s.modify c fun cl =>
            { cl with writer := .ranging, written := cl.written ++ [msg] })
        else none
      else some (s.modify c fun cl => { cl with writer := .returned })
    | _ => none
  | .drained =>
    if cl.writer = .ranging ∧ cl.out = [] ∧ cl.outClosed then
      some (s.modify c fun cl => { cl with writer := .returned })
    else none
  | .frame msg enqueuedAt now wrote =>
    if cl.pc = .reading then
      match msg with
      | none => some s
      | some msg => some (s.readFrame c cl msg enqueuedAt now wrote)
    else none
  | .sendLive =>
    match cl.pc with
    | .routing target env clientRef =>
      some (s.sendFrom c target (deliver env)
        (fun s => { s with accepted := env :: s.accepted }.goto c (.acking env.id clientRef))
        .leaving)
    | _ => none
  | .ack acceptedAt =>
    match cl.pc with
    | .acking id clientRef =>
      some (s.sendFrom c c
        { kind := "ack", envelopeID := id, acceptedAt := acceptedAt, clientRef := clientRef }
        (·.goto c .reading) .leaving)
    | _ => none
  | .forward =>
    match cl.pc with
    | .forwarding target msg => some (s.sendFrom c target msg (·.goto c .reading) .leaving)
    | _ => none
  | .readError => if cl.pc = .reading then some (s.goto c .leaving) else none
  | .unregister =>
    if cl.pc = .leaving then
      some ({ s with hub := s.hub.unregister c cl.routeKey }.goto c .unregistered)
    else none
  | .closeOut =>
    if cl.pc = .unregistered then
      -- closing a closed channel panics as well; the defers that are left are none
      if cl.outClosed then some (s.goto c .gone)
      else some (s.modify c fun cl => { cl with pc := .channelClosed, outClosed := true })
    else none
  | .closeConn =>
    if cl.pc = .channelClosed then
      some (s.modify c fun cl => { cl with pc := .gone, socketOpen := false })
    else none
  | .expire => some (s.modify c fun cl => { cl with socketOpen := false })

/-- What happens next, anywhere in the relay: a connection passes
authentication as some user and device, or an existing one moves. -/
inductive Action where
  | connect (userID : String) (deviceID : Int64)
  | at (c : ConnId) (move : Move)

/-- The handler of `/v1/relay` has verified the token and upgraded. -/
def Relay.connect (s : Relay) (userID : String) (deviceID : Int64) : Relay :=
  { s with
    clients := Function.update s.clients s.nextConn (some (newClient userID deviceID))
    nextConn := s.nextConn + 1 }

def Relay.step (s : Relay) : Action → Option Relay
  | .connect userID deviceID => some (s.connect userID deviceID)
  | .at c move => (s.clients c).bind fun cl => s.stepAt c cl move

/-- The relay as `main` starts it. -/
def started (hub : Hub) (disk : Option PersistedHub) : Relay where
  hub := hub
  disk := disk
  clients := fun _ => none
  nextConn := 0

/-- A relay process over a fresh file. -/
def process : Machine Relay Action where
  start s := ∃ path pusher, s = started (newHub path pusher) none
  step := Relay.step

/-- An action of the relay process, or its restart over the file it left. -/
inductive Event where
  | act (a : Action)
  | restart (pusher : Bool) (readable : Bool) (now : Int)

/-- The relay across restarts: the connections and everything in memory are
lost, the histories are not. -/
def service : Machine Relay Event where
  start s := process.start s
  step s
    | .act a => s.step a
    | .restart pusher readable now =>
      some { started (boot s.hub.path pusher (if readable then s.disk else none) now) s.disk with
        submissions := s.submissions
        accepted := s.accepted
        pruned := s.pruned }

/-! ## Shared records -/

@[simp] theorem goto_hub (s : Relay) (c : ConnId) (pc : Pc) : (s.goto c pc).hub = s.hub := rfl

theorem modify_clients (s : Relay) (c d : ConnId) (f : Client → Client) :
    (s.modify c f).clients d = if d = c then (s.clients c).map f else s.clients d := by
  simp [Relay.modify, Function.update_apply]

/-- A record after `modify` is the changed one or was there before. -/
theorem modify_found {s : Relay} {c d : ConnId} {f : Client → Client} {cl' : Client}
    (found : (s.modify c f).clients d = some cl') :
    (d = c ∧ ∃ cl, s.clients c = some cl ∧ cl' = f cl) ∨ (d ≠ c ∧ s.clients d = some cl') := by
  rw [modify_clients] at found
  split at found
  · next same =>
    obtain ⟨cl, before, rfl⟩ := Option.map_eq_some_iff.mp found
    exact .inl ⟨same, cl, before, rfl⟩
  · next other => exact .inr ⟨other, found⟩

/-- Where the record that was changed is known. -/
theorem modify_found_of {s : Relay} {c d : ConnId} {f : Client → Client} {cl cl' : Client}
    (found : s.clients c = some cl) (after : (s.modify c f).clients d = some cl') :
    (d = c ∧ cl' = f cl) ∨ (d ≠ c ∧ s.clients d = some cl') := by
  refine (modify_found after).imp ?_ id
  rintro ⟨own, cl₀, before, rfl⟩
  rw [found] at before
  cases before
  exact ⟨own, rfl⟩

theorem modify_self {s : Relay} {c : ConnId} {cl : Client} (f : Client → Client)
    (found : s.clients c = some cl) : (s.modify c f).clients c = some (f cl) := by
  simp [modify_clients, found]

theorem modify_ne {s : Relay} {c d : ConnId} (f : Client → Client) (other : d ≠ c) :
    (s.modify c f).clients d = s.clients d := by
  simp [modify_clients, other]

theorem modify_modify (s : Relay) (c : ConnId) (f g : Client → Client) :
    (s.modify c f).modify c g = s.modify c fun cl => g (f cl) := by
  simp [Relay.modify, Option.map_map, Function.comp_def]

/-- Changes of two records, or of two fields of one, can be made in either order. -/
theorem modify_comm (s : Relay) (c d : ConnId) (f g : Client → Client)
    (comm : ∀ cl, f (g cl) = g (f cl)) :
    (s.modify c f).modify d g = (s.modify d g).modify c f := by
  have clients (e : ConnId) :
      ((s.modify c f).modify d g).clients e = ((s.modify d g).modify c f).clients e := by
    simp only [modify_clients]
    by_cases atC : e = c
    · subst atC
      by_cases atD : e = d
      · subst atD
        simp [Function.comp_def, comm]
      · simp [atD]
    · by_cases atD : e = d
      · subst atD
        simp [atC]
      · simp [atC, atD]
  have same := funext clients
  simp only [Relay.modify] at same ⊢
  rw [same]

/-- A record after `connect` is the new one or was there before. -/
theorem connect_found {s : Relay} {userID : String} {deviceID : Int64} {d : ConnId} {cl' : Client}
    (found : (s.connect userID deviceID).clients d = some cl') :
    cl' = newClient userID deviceID ∨ s.clients d = some cl' := by
  simp only [Relay.connect, Function.update_apply] at found
  split at found
  · cases found; exact .inl rfl
  · exact .inr found

theorem connect_new (s : Relay) (userID : String) (deviceID : Int64) :
    (s.connect userID deviceID).clients s.nextConn = some (newClient userID deviceID) := by
  simp [Relay.connect]

theorem connect_ne {s : Relay} {userID : String} {deviceID : Int64} {d : ConnId}
    (other : d ≠ s.nextConn) : (s.connect userID deviceID).clients d = s.clients d := by
  simp [Relay.connect, other]

/-- The channel accepts one more frame. -/
def Client.accept (cl : Client) (msg : RelayMessage) : Client :=
  { cl with out := cl.out ++ [msg], placed := cl.placed ++ [msg] }

/-- A send that returns found an open channel; it put the frame there, or found
no room and changed nothing. -/
theorem send_cases {s s' : Relay} {target : ConnId} {msg : RelayMessage}
    (sent : s.send target msg = some s') :
    ∃ cl, s.clients target = some cl ∧ cl.outClosed = false ∧
      (cl.out.length < outCapacity ∧ s' = s.modify target (·.accept msg) ∨
        outCapacity ≤ cl.out.length ∧ s' = s) := by
  simp only [Relay.send, Option.bind_eq_bind, Option.bind_eq_some_iff] at sent
  obtain ⟨cl, found, cl', accepted, result⟩ := sent
  refine ⟨cl, found, ?_⟩
  unfold Client.send at accepted
  split at accepted
  · cases accepted
  · next opened =>
    refine ⟨by simpa using opened, ?_⟩
    split at accepted
    · next room =>
      cases accepted
      cases result
      exact .inl ⟨room, by simp [Relay.modify, found, Client.accept]⟩
    · next full =>
      cases accepted
      cases result
      exact .inr ⟨by omega, by simp [← found]⟩

/-- Only a closed channel makes a send to a known connection panic. -/
theorem send_panics {s : Relay} {target : ConnId} {msg : RelayMessage} {cl : Client}
    (found : s.clients target = some cl) :
    s.send target msg = none ↔ cl.outClosed = true := by
  cases closed : cl.outClosed <;> by_cases room : cl.out.length < outCapacity <;>
    simp [Relay.send, found, Client.send, closed, room]

/-- A send leaves the rest of the relay alone. -/
theorem send_frame {s s' : Relay} {target : ConnId} {msg : RelayMessage}
    (sent : s.send target msg = some s') :
    s'.hub = s.hub ∧ s'.disk = s.disk ∧ s'.nextConn = s.nextConn ∧
      s'.submissions = s.submissions ∧ s'.accepted = s.accepted ∧ s'.pruned = s.pruned := by
  obtain ⟨cl, _, _, ⟨_, rfl⟩ | ⟨_, rfl⟩⟩ := send_cases sent
  · exact ⟨rfl, rfl, rfl, rfl, rfl, rfl⟩
  · exact ⟨rfl, rfl, rfl, rfl, rfl, rfl⟩

/-! ## What a step can do -/

/-- Every way the relay moves, with the guards that enable it. -/
inductive Moves (s : Relay) : Action → Relay → Prop where
  | connect (userID : String) (deviceID : Int64) :
      Moves s (.connect userID deviceID) (s.connect userID deviceID)
  | register (found : s.clients c = some cl) (pc : cl.pc = .registering) :
      Moves s (.at c (.register now wrote))
        ({ s with
            hub := (s.hub.register c cl.routeKey now wrote s.disk).1
            disk := (s.hub.register c cl.routeKey now wrote s.disk).2.1
            pruned := s.pruned ++ removed now (s.hub.queue cl.routeKey) : Relay }.goto c
          (.flushing (kept now (s.hub.queue cl.routeKey))))
  | flush (found : s.clients c = some cl) (pc : cl.pc = .flushing (qe :: rest))
      (sent : s.send c (deliver qe.env) = some s') :
      Moves s (.at c .flush) (s'.goto c (.flushing rest))
  | flushPanic (found : s.clients c = some cl) (pc : cl.pc = .flushing (qe :: rest))
      (panicked : s.send c (deliver qe.env) = none) :
      Moves s (.at c .flush) (s.goto c .gone)
  | startWriter (found : s.clients c = some cl) (pc : cl.pc = .flushing []) :
      Moves s (.at c .startWriter)
        (s.modify c fun cl => { cl with pc := .reading, writer := .ranging })
  | take (found : s.clients c = some cl) (writer : cl.writer = .ranging)
      (out : cl.out = msg :: rest) :
      Moves s (.at c .take) (s.modify c fun cl => { cl with out := rest, writer := .writing msg })
  | write (found : s.clients c = some cl) (writer : cl.writer = .writing msg) :
      Moves s (.at c (.write true))
        (s.modify c fun cl => { cl with writer := .ranging, written := cl.written ++ [msg] })
  | writeError (found : s.clients c = some cl) (writer : cl.writer = .writing msg) :
      Moves s (.at c (.write false)) (s.modify c fun cl => { cl with writer := .returned })
  | drained (found : s.clients c = some cl) (writer : cl.writer = .ranging) (out : cl.out = [])
      (closed : cl.outClosed = true) :
      Moves s (.at c .drained) (s.modify c fun cl => { cl with writer := .returned })
  | ignore (found : s.clients c = some cl) (pc : cl.pc = .reading) :
      Moves s (.at c (.frame msg enqueuedAt now wrote)) s
  | registerPush (found : s.clients c = some cl) (pc : cl.pc = .reading) :
      Moves s (.at c (.frame (some msg) enqueuedAt now wrote))
        { s with hub := s.hub.registerPushToken cl.routeKey msg.token }
  | routeLive (found : s.clients c = some cl) (pc : cl.pc = .reading)
      (claimed : env = cl.stampSender envelope)
      (connected : s.hub.conns env.key = some target) :
      Moves s (.at c (.frame (some msg) enqueuedAt now wrote))
        ({ s with
            hub := s.hub.count
            disk := s.hub.count.persistLocked wrote s.disk
            submissions :=
              ⟨cl.userID, cl.deviceID, envelope, (s.hub.count.stamp env).id⟩ :: s.submissions
            : Relay }.goto c (.routing target (s.hub.count.stamp env) msg.clientRef))
  | routeOffline (found : s.clients c = some cl) (pc : cl.pc = .reading)
      (claimed : env = cl.stampSender envelope) (offline : s.hub.conns env.key = none) :
      Moves s (.at c (.frame (some msg) enqueuedAt now wrote))
        ({ s with
            hub := s.hub.enqueue env enqueuedAt now
            disk := (s.hub.enqueue env enqueuedAt now).persistLocked wrote s.disk
            submissions :=
              ⟨cl.userID, cl.deviceID, envelope, (s.hub.count.stamp env).id⟩ :: s.submissions
            accepted := s.hub.count.stamp env :: s.accepted
            pruned := s.pruned ++
              removed now (s.hub.queue env.key ++ [⟨s.hub.count.stamp env, enqueuedAt⟩])
            : Relay }.goto c (.acking (s.hub.count.stamp env).id msg.clientRef))
  | receipt (found : s.clients c = some cl) (pc : cl.pc = .reading) (status : msg.kind = "status")
      (connected : s.hub.conns key = some target) :
      Moves s (.at c (.frame (some received) enqueuedAt now wrote))
        (s.goto c (.forwarding target msg))
  | sendLive (found : s.clients c = some cl) (pc : cl.pc = .routing target env clientRef)
      (sent : s.send target (deliver env) = some s') :
      Moves s (.at c .sendLive)
        ({ s' with accepted := env :: s'.accepted : Relay }.goto c (.acking env.id clientRef))
  | sendLivePanic (found : s.clients c = some cl) (pc : cl.pc = .routing target env clientRef)
      (panicked : s.send target (deliver env) = none) :
      Moves s (.at c .sendLive) (s.goto c .leaving)
  | ack (found : s.clients c = some cl) (pc : cl.pc = .acking envelopeID clientRef)
      (kind : msg.kind = "ack") (sent : s.send c msg = some s') :
      Moves s (.at c (.ack acceptedAt)) (s'.goto c .reading)
  | ackPanic (found : s.clients c = some cl) (pc : cl.pc = .acking envelopeID clientRef)
      (panicked : s.send c msg = none) :
      Moves s (.at c (.ack acceptedAt)) (s.goto c .leaving)
  | forward (found : s.clients c = some cl) (pc : cl.pc = .forwarding target msg)
      (sent : s.send target msg = some s') :
      Moves s (.at c .forward) (s'.goto c .reading)
  | forwardPanic (found : s.clients c = some cl) (pc : cl.pc = .forwarding target msg)
      (panicked : s.send target msg = none) :
      Moves s (.at c .forward) (s.goto c .leaving)
  | readError (found : s.clients c = some cl) (pc : cl.pc = .reading) :
      Moves s (.at c .readError) (s.goto c .leaving)
  | unregister (found : s.clients c = some cl) (pc : cl.pc = .leaving) :
      Moves s (.at c .unregister)
        ({ s with hub := s.hub.unregister c cl.routeKey : Relay }.goto c .unregistered)
  | closeOut (found : s.clients c = some cl) (pc : cl.pc = .unregistered)
      (opened : cl.outClosed = false) :
      Moves s (.at c .closeOut)
        (s.modify c fun cl => { cl with pc := .channelClosed, outClosed := true })
  | closeTwice (found : s.clients c = some cl) (pc : cl.pc = .unregistered)
      (closed : cl.outClosed = true) :
      Moves s (.at c .closeOut) (s.goto c .gone)
  | closeConn (found : s.clients c = some cl) (pc : cl.pc = .channelClosed) :
      Moves s (.at c .closeConn)
        (s.modify c fun cl => { cl with pc := .gone, socketOpen := false })
  | expire (found : s.clients c = some cl) :
      Moves s (.at c .expire) (s.modify c fun cl => { cl with socketOpen := false })

/-- The part of `readPump` after a frame has been read moves as listed. -/
private theorem readFrame_moves {s : Relay} {c : ConnId} {cl : Client} {msg : RelayMessage}
    {enqueuedAt now : Int} {wrote : Bool} (found : s.clients c = some cl) (pc : cl.pc = .reading) :
    Moves s (.at c (.frame (some msg) enqueuedAt now wrote))
      (s.readFrame c cl msg enqueuedAt now wrote) := by
  unfold Relay.readFrame
  split
  · cases carried : msg.envelope with
    | none => exact .ignore found pc
    | some envelope =>
      cases captured : s.hub.conns (cl.stampSender envelope).key with
      | some target =>
        simp only [Relay.routeFrame, route_live captured]
        exact .routeLive found pc rfl captured
      | none =>
        simp only [Relay.routeFrame, route_offline captured]
        exact .routeOffline found pc rfl captured
  · split
    · split
      · exact .registerPush found pc
      · exact .ignore found pc
    · split
      · split
        · split
          · next target connected => exact .receipt found pc rfl connected
          · exact .ignore found pc
        · exact .ignore found pc
      · exact .ignore found pc

/-- A send moves as listed for its two outcomes. -/
private theorem sendFrom_moves {s : Relay} {a : Action} {sent : Relay → Relay}
    (delivered : ∀ s', s.send target msg = some s' → Moves s a (sent s'))
    (panics : s.send target msg = none → Moves s a (s.goto c panicked)) :
    Moves s a (s.sendFrom c target msg sent panicked) := by
  unfold Relay.sendFrom
  split
  · next s' eq => exact delivered s' eq
  · next eq => exact panics eq

/-- The executable step only moves as listed. -/
theorem step_moves {s s' : Relay} {a : Action} (moved : s.step a = some s') : Moves s a s' := by
  cases a with
  | connect userID deviceID =>
    cases moved
    exact .connect userID deviceID
  | «at» c move =>
    simp only [Relay.step, Option.bind_eq_some_iff] at moved
    obtain ⟨cl, found, moved⟩ := moved
    cases move with
    | register now wrote =>
      simp only [Relay.stepAt] at moved
      split at moved
      · next pc =>
        cases moved
        have flushed := (register_eq s.hub c cl.routeKey now wrote s.disk).2
        rw [flushed]
        exact .register found pc
      · cases moved
    | flush =>
      simp only [Relay.stepAt] at moved
      split at moved
      · next qe rest pc =>
        cases moved
        exact sendFrom_moves (fun _ => .flush found pc) (.flushPanic found pc)
      · cases moved
    | startWriter =>
      simp only [Relay.stepAt] at moved
      split at moved
      · next pc => cases moved; exact .startWriter found pc
      · cases moved
    | take =>
      simp only [Relay.stepAt] at moved
      split at moved
      · next writer out => cases moved; exact .take found writer out
      · cases moved
    | write ok =>
      simp only [Relay.stepAt] at moved
      split at moved
      · next writer =>
        cases ok with
        | true =>
          simp only [↓reduceIte, Option.ite_none_right_eq_some, Option.some.injEq] at moved
          obtain ⟨_, rfl⟩ := moved
          exact .write found writer
        | false => cases moved; exact .writeError found writer
      · cases moved
    | drained =>
      simp only [Relay.stepAt, Option.ite_none_right_eq_some, Option.some.injEq] at moved
      obtain ⟨⟨writer, out, closed⟩, rfl⟩ := moved
      exact .drained found writer out closed
    | frame msg enqueuedAt now wrote =>
      simp only [Relay.stepAt, Option.ite_none_right_eq_some] at moved
      obtain ⟨pc, moved⟩ := moved
      cases msg with
      | none => cases moved; exact .ignore found pc
      | some msg => cases moved; exact readFrame_moves found pc
    | sendLive =>
      simp only [Relay.stepAt] at moved
      split at moved
      · next target env clientRef pc =>
        cases moved
        exact sendFrom_moves (fun _ => .sendLive found pc) (.sendLivePanic found pc)
      · cases moved
    | ack acceptedAt =>
      simp only [Relay.stepAt] at moved
      split at moved
      · next id clientRef pc =>
        cases moved
        exact sendFrom_moves (fun _ => .ack found pc rfl) (.ackPanic found pc)
      · cases moved
    | forward =>
      simp only [Relay.stepAt] at moved
      split at moved
      · next target msg pc =>
        cases moved
        exact sendFrom_moves (fun _ => .forward found pc) (.forwardPanic found pc)
      · cases moved
    | readError =>
      simp only [Relay.stepAt, Option.ite_none_right_eq_some, Option.some.injEq] at moved
      obtain ⟨pc, rfl⟩ := moved
      exact .readError found pc
    | unregister =>
      simp only [Relay.stepAt, Option.ite_none_right_eq_some, Option.some.injEq] at moved
      obtain ⟨pc, rfl⟩ := moved
      exact .unregister found pc
    | closeOut =>
      simp only [Relay.stepAt, Option.ite_none_right_eq_some] at moved
      obtain ⟨pc, moved⟩ := moved
      split at moved
      · next closed => cases moved; exact .closeTwice found pc closed
      · next opened => cases moved; exact .closeOut found pc (by simpa using opened)
    | closeConn =>
      simp only [Relay.stepAt, Option.ite_none_right_eq_some, Option.some.injEq] at moved
      obtain ⟨pc, rfl⟩ := moved
      exact .closeConn found pc
    | expire =>
      cases moved
      exact .expire found

end Hwfa.RelayProcess
