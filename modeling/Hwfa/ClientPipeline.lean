import Hwfa.ClientSessions

/-!
Calls of `sendText` and deliveries of `HwfaClient` side by side
(`packages/client/src/client.ts`, `relay.ts`).

Each call and each delivery runs at once from one await to the next; what it
awaits answers in a step of its own.  A crypto operation is in flight from the
step that begins it to the step in which it answers.  What is kept of the past is
what the sockets, the callers and the text handlers have seen: the encryptions
begun, the envelopes written, the calls that ended, the texts handed out.
`ClientSessions` says which keys the sessions have; here a session is only
established or not.
-/

namespace Hwfa.ClientPipeline

open Hwfa.Machines Hwfa.Maps
open Hwfa.ClientSessions (Bundle CachedDevices DEVICE_LIST_TTL_MS)

/-- The states of a `WebSocket` before its close event. -/
inductive ReadyState where
  | connecting
  | opened
  | closing
  deriving DecidableEq

/-- A `RelayConnection` that the client holds. -/
structure Socket where
  number : Nat
  readyState : ReadyState
  deriving DecidableEq

/-- What a `sendText` waits for. -/
inductive Stage where
  /-- `listDevices` -/
  | listing
  /-- nothing: it is at the head of the loop over the devices -/
  | next
  /-- `fetchBundle`, without a session -/
  | fetching (deviceUserId : String)
  /-- `establishSession` -/
  | establishing (deviceUserId : String) (bundle : Bundle)
  /-- `fetchBundle`, only for the identity -/
  | backfilling (deviceUserId : String) (known : Int)
  /-- nothing: `ensureSession` has returned -/
  | ensured (deviceUserId : String) (peerDevice : Int)
  /-- `encrypt` -/
  | encrypting (deviceUserId : String) (peerDevice : Int)
  deriving DecidableEq

/-- A call of `sendText` under way, with the devices the loop has yet to come to. -/
structure Send where
  peerUserId : String
  text : String
  ref : String
  devices : List String
  stage : Stage
  deriving DecidableEq

/-- An envelope that waits for `decrypt`. -/
structure Inbound where
  connection : Nat
  senderId : String
  senderDevice : Int
  deriving DecidableEq

/-- An encryption that was begun. -/
structure Begun where
  call : Nat
  peerUserId : String
  recipientId : String
  deriving DecidableEq

/-- An envelope written to a relay socket, with the call it is from. -/
structure Written where
  call : Nat
  peerUserId : String
  recipientId : String
  recipientDevice : Int
  senderId : Option String
  senderDevice : Int
  text : String
  clientRef : Option String
  deriving DecidableEq

/-- A call that has ended; its promise resolved or was rejected. -/
structure Ended where
  call : Nat
  peerUserId : String
  ref : String
  resolved : Bool
  deriving DecidableEq

/-- What happens to the session with a peer's device. -/
inductive SessionEvent where
  | establishing (deviceUserId : String)
  | established (deviceUserId : String)
  | refused (deviceUserId : String)
  /-- a message of the device has been decrypted -/
  | completed (deviceUserId : String)
  deriving DecidableEq

/-- A text handed to the text handlers. -/
structure Surfaced where
  connection : Nat
  frame : Nat
  fromUserId : String
  text : String
  deriving DecidableEq

structure Client where
  userId : Option String := none
  deviceId : Int := 1
  relay : Option Socket := none
  connections : Nat := 0
  peerDevice : FinMap String Int := ∅
  peerIdentity : FinMap String (Option String) := ∅
  peerDevices : FinMap String CachedDevices := ∅
  sends : FinMap Nat Send := ∅
  calls : Nat := 0
  inbound : FinMap Nat Inbound := ∅
  frames : Nat := 0
  begun : List Begun := []
  written : List Written := []
  ended : List Ended := []
  sessions : List SessionEvent := []
  surfaced : List Surfaced := []

/-- What a call does until its next await: the rest of the client, and the call,
unless it has ended. -/
structure Round where
  client : Client
  call : Option Send

def Client.after (id : Nat) (round : Round) : Client :=
  { round.client with
    sends := match round.call with
      | some task => round.client.sends.insert id task
      | none => round.client.sends.erase id }

/-- `sendText` up to its first await: the device list, if it is cached. -/
def Client.sendText (c : Client) (peerUserId text : String) (clientRef : Option String)
    (freshRef : String) (now : Int) : Client :=
  let ref := clientRef.getD freshRef
  if c.relay.isNone || c.userId.isNone then
    { c with ended := c.ended ++ [⟨c.calls, peerUserId, ref, false⟩], calls := c.calls + 1 }
  else
    let fresh := (c.peerDevices.lookup peerUserId).filter fun cached =>
      now - cached.at_ < DEVICE_LIST_TTL_MS
    let task : Send := match fresh with
      | some cached => ⟨peerUserId, text, ref, cached.devices, .next⟩
      | none => ⟨peerUserId, text, ref, [], .listing⟩
    { c with sends := c.sends.insert c.calls task, calls := c.calls + 1 }

/-- The devices of a peer, with or without an answer of `listDevices`. -/
def devicesOf (peerUserId : String) (reply : Option (List String)) : List String :=
  match reply with
  | some list => if peerUserId ∈ list then list else peerUserId :: list
  | none => [peerUserId]

/-- `devicesForPeer` goes on with the list, or without one. -/
def Client.listed (c : Client) (task : Send) (reply : Option (List String)) (now : Int) : Round :=
  let devices := devicesOf task.peerUserId reply
  { client := { c with peerDevices := c.peerDevices.insert task.peerUserId ⟨devices, now⟩ }
    call := some { task with devices := devices, stage := .next } }

/-- The head of the loop, and `ensureSession` up to its first await. -/
def Client.loop (c : Client) (id : Nat) (task : Send) : Round :=
  match task.devices with
  | [] =>
    { client := { c with ended := c.ended ++ [⟨id, task.peerUserId, task.ref, true⟩] }
      call := none }
  | deviceUserId :: rest =>
    let stage :=
      if some deviceUserId = c.userId then .next
      else
        match c.peerDevice.lookup deviceUserId with
        | none => .fetching deviceUserId
        | some known =>
          if (c.peerIdentity.lookup deviceUserId).isSome then .ensured deviceUserId known
          else .backfilling deviceUserId known
    { client := c, call := some { task with devices := rest, stage := stage } }

/-- `ensureSession` goes on with a bundle; without one it fails, or goes on with the
session it knows. -/
def Client.fetched (c : Client) (task : Send) (reply : Option Bundle) : Option Round :=
  match task.stage with
  | .fetching deviceUserId =>
    match reply with
    | none => some { client := c, call := some { task with stage := .next } }
    | some bundle =>
      some
        { client := { c with sessions := c.sessions ++ [.establishing deviceUserId] }
          call := some { task with stage := .establishing deviceUserId bundle } }
  | .backfilling deviceUserId known =>
    let c := match reply with
      | none => c
      | some bundle =>
        { c with peerIdentity := c.peerIdentity.insert deviceUserId bundle.identityKeyB64 }
    some { client := c, call := some { task with stage := .ensured deviceUserId known } }
  | _ => none

/-- `establishSession` has answered, and `ensureSession` ends. -/
def Client.established (c : Client) (task : Send) (accepted : Bool) : Option Round :=
  match task.stage with
  | .establishing deviceUserId bundle =>
    if accepted then
      some
        { client := { c with
            sessions := c.sessions ++ [.established deviceUserId]
            peerDevice := c.peerDevice.insert deviceUserId bundle.deviceId
            peerIdentity := c.peerIdentity.insert deviceUserId bundle.identityKeyB64 }
          call := some { task with stage := .ensured deviceUserId bundle.deviceId } }
    else
      some
        { client := { c with sessions := c.sessions ++ [.refused deviceUserId] }
          call := some { task with stage := .next } }
  | _ => none

/-- `encrypt` is called. -/
def Client.encrypt (c : Client) (id : Nat) (task : Send) : Option Round :=
  match task.stage with
  | .ensured deviceUserId peerDevice =>
    some
      { client := { c with begun := c.begun ++ [⟨id, task.peerUserId, deviceUserId⟩] }
        call := some { task with stage := .encrypting deviceUserId peerDevice } }
  | _ => none

/-- `sendEnvelope` on the relay the client now holds.  Without one, and on a socket
that is still connecting, it throws; a socket that is closing drops what it is given. -/
def Client.sendEnvelope (c : Client) (envelope : Written) : Client :=
  match c.relay with
  | some ⟨_, .opened⟩ => { c with written := c.written ++ [envelope] }
  | _ => c

/-- `encrypt` has answered, and the round of the loop ends. -/
def Client.encrypted (c : Client) (id : Nat) (task : Send) (accepted : Bool) : Option Round :=
  match task.stage with
  | .encrypting deviceUserId peerDevice =>
    let envelope : Written :=
      { call := id
        peerUserId := task.peerUserId
        recipientId := deviceUserId
        recipientDevice := peerDevice
        senderId := c.userId
        senderDevice := c.deviceId
        text := task.text
        clientRef := if deviceUserId = task.peerUserId then some task.ref else none }
    some
      { client := if accepted then c.sendEnvelope envelope else c
        call := some { task with stage := .next } }
  | _ => none

/-- `handleDeliver` up to its await. -/
def Client.deliver (c : Client) (env : Inbound) : Client :=
  { c with inbound := c.inbound.insert c.frames env, frames := c.frames + 1 }

/-- `decrypt` has answered: `handleDeliver` learns the device and hands the text out,
or ends. -/
def Client.decrypted (c : Client) (frame : Nat) (env : Inbound) (reply : Option String) : Client :=
  let c := { c with inbound := c.inbound.erase frame }
  match reply with
  | none => c
  | some text =>
    { c with
      sessions := c.sessions ++ [.completed env.senderId]
      peerDevice :=
        if (c.peerDevice.lookup env.senderId).isSome then c.peerDevice
        else c.peerDevice.insert env.senderId env.senderDevice
      surfaced := c.surfaced ++ [⟨env.connection, frame, env.senderId, text⟩] }

inductive Action where
  /-- also what `onboard`, `confirmOtp` and `linkWithCode` do to the client -/
  | resume (userId : String) (deviceId : Int)
  | deleteAccount
  | setPeerIdentityKey (peerUserId identityKeyB64 : String)
  | connectRelay
  | opened
  | closing
  /-- the socket's close event -/
  | handleSocketClosed
  | close
  | sendText (peerUserId text : String) (clientRef : Option String) (freshRef : String) (now : Int)
  | listed (id : Nat) (reply : Option (List String)) (now : Int)
  | loop (id : Nat)
  | fetched (id : Nat) (reply : Option Bundle)
  | established (id : Nat) (accepted : Bool)
  | encrypt (id : Nat)
  | encrypted (id : Nat) (accepted : Bool)
  | deliver (env : Inbound)
  | decrypted (frame : Nat) (reply : Option String)

/-- What the call does that the action lets go on. -/
def Client.round (c : Client) (id : Nat) (task : Send) : Action → Option Round
  | .listed _ reply now => if task.stage = .listing then some (c.listed task reply now) else none
  | .loop _ => if task.stage = .next then some (c.loop id task) else none
  | .fetched _ reply => c.fetched task reply
  | .established _ accepted => c.established task accepted
  | .encrypt _ => c.encrypt id task
  | .encrypted _ accepted => c.encrypted id task accepted
  | _ => none

/-- The call goes on. -/
def Client.goOn (c : Client) (id : Nat) (a : Action) : Option Client :=
  (c.sends.lookup id).bind fun task => (c.round id task a).map (Client.after id)

def Client.step (c : Client) : Action → Option Client
  | .resume userId deviceId =>
    some { c with userId := some userId, deviceId := if 0 < deviceId then deviceId else 1 }
  | .deleteAccount => some { c with userId := none, relay := none }
  | .setPeerIdentityKey peerUserId identityKeyB64 =>
    some { c with peerIdentity := c.peerIdentity.insert peerUserId (some identityKeyB64) }
  | .connectRelay =>
    if c.relay.isSome || c.userId.isNone then some c
    else some { c with relay := some ⟨c.connections, .connecting⟩, connections := c.connections + 1 }
  | .opened =>
    match c.relay with
    | some ⟨number, .connecting⟩ => some { c with relay := some ⟨number, .opened⟩ }
    | _ => none
  | .closing => some { c with relay := c.relay.map fun socket => { socket with readyState := .closing } }
  | .handleSocketClosed => some { c with relay := none }
  | .close => some { c with relay := none }
  | .sendText peerUserId text clientRef freshRef now =>
    some (c.sendText peerUserId text clientRef freshRef now)
  | .listed id reply now => c.goOn id (.listed id reply now)
  | .loop id => c.goOn id (.loop id)
  | .fetched id reply => c.goOn id (.fetched id reply)
  | .established id accepted => c.goOn id (.established id accepted)
  | .encrypt id => c.goOn id (.encrypt id)
  | .encrypted id accepted => c.goOn id (.encrypted id accepted)
  | .deliver env => if env.connection < c.connections then some (c.deliver env) else none
  | .decrypted frame reply => (c.inbound.lookup frame).map fun env => c.decrypted frame env reply

def client : Machine Client Action where
  start c := c = {}
  step := Client.step

/-! ## What a step can do -/

/-- The device a call is at. -/
def Stage.device : Stage → Option String
  | .listing | .next => none
  | .fetching d | .establishing d _ | .backfilling d _ | .ensured d _ | .encrypting d _ => some d

/-- The address of the crypto operation a call waits for. -/
def Stage.operation : Stage → Option (String × Int)
  | .establishing d bundle => some (d, bundle.deviceId)
  | .encrypting d peerDevice => some (d, peerDevice)
  | .listing | .next | .fetching _ | .backfilling .. | .ensured .. => none

/-- The call may still encrypt for the device. -/
def Send.ahead (task : Send) (deviceUserId : String) : Bool :=
  task.stage = .listing || deviceUserId ∈ task.devices || task.stage.device = some deviceUserId

/-- The call that the action lets go on. -/
def Action.call : Action → Option Nat
  | .listed id .. | .loop id | .fetched id _ | .established id _ | .encrypt id
  | .encrypted id _ => some id
  | _ => none

/-- Every way a call goes on. -/
inductive Rounds (c : Client) (id : Nat) (task : Send) : Action → Round → Prop where
  | listed {id' : Nat} {reply : Option (List String)} {now : Int} (stage : task.stage = .listing) :
      Rounds c id task (.listed id' reply now) (c.listed task reply now)
  | ends {id' : Nat} (stage : task.stage = .next) (done : task.devices = []) :
      Rounds c id task (.loop id')
        ⟨{ c with ended := c.ended ++ [⟨id, task.peerUserId, task.ref, true⟩] }, none⟩
  | skips {id' : Nat} {d : String} {rest : List String} (stage : task.stage = .next)
      (more : task.devices = d :: rest) (own : some d = c.userId) :
      Rounds c id task (.loop id') ⟨c, some { task with devices := rest, stage := .next }⟩
  | fetches {id' : Nat} {d : String} {rest : List String} (stage : task.stage = .next)
      (more : task.devices = d :: rest) (other : some d ≠ c.userId)
      (unknown : c.peerDevice.lookup d = none) :
      Rounds c id task (.loop id') ⟨c, some { task with devices := rest, stage := .fetching d }⟩
  | backfills {id' : Nat} {d : String} {rest : List String} {device : Int}
      (stage : task.stage = .next) (more : task.devices = d :: rest) (other : some d ≠ c.userId)
      (known : c.peerDevice.lookup d = some device) :
      Rounds c id task (.loop id')
        ⟨c, some { task with devices := rest, stage := .backfilling d device }⟩
  | knows {id' : Nat} {d : String} {rest : List String} {device : Int} (stage : task.stage = .next)
      (more : task.devices = d :: rest) (other : some d ≠ c.userId)
      (known : c.peerDevice.lookup d = some device) :
      Rounds c id task (.loop id')
        ⟨c, some { task with devices := rest, stage := .ensured d device }⟩
  | unbundled {id' : Nat} {d : String} (stage : task.stage = .fetching d) :
      Rounds c id task (.fetched id' none) ⟨c, some { task with stage := .next }⟩
  | establishes {id' : Nat} {d : String} {bundle : Bundle} (stage : task.stage = .fetching d) :
      Rounds c id task (.fetched id' (some bundle))
        ⟨{ c with sessions := c.sessions ++ [.establishing d] },
          some { task with stage := .establishing d bundle }⟩
  | backfilled {d : String} {device : Int} {id' : Nat} {reply : Option Bundle}
      {identity : FinMap String (Option String)} (stage : task.stage = .backfilling d device) :
      Rounds c id task (.fetched id' reply)
        ⟨{ c with peerIdentity := identity }, some { task with stage := .ensured d device }⟩
  | accepted {id' : Nat} {d : String} {bundle : Bundle}
      (stage : task.stage = .establishing d bundle) :
      Rounds c id task (.established id' true)
        ⟨{ c with
            sessions := c.sessions ++ [.established d]
            peerDevice := c.peerDevice.insert d bundle.deviceId
            peerIdentity := c.peerIdentity.insert d bundle.identityKeyB64 },
          some { task with stage := .ensured d bundle.deviceId }⟩
  | refused {id' : Nat} {d : String} {bundle : Bundle}
      (stage : task.stage = .establishing d bundle) :
      Rounds c id task (.established id' false)
        ⟨{ c with sessions := c.sessions ++ [.refused d] }, some { task with stage := .next }⟩
  | encrypts {id' : Nat} {d : String} {device : Int} (stage : task.stage = .ensured d device) :
      Rounds c id task (.encrypt id')
        ⟨{ c with begun := c.begun ++ [⟨id, task.peerUserId, d⟩] },
          some { task with stage := .encrypting d device }⟩
  | writes {id' number : Nat} {d : String} {device : Int} (stage : task.stage = .encrypting d device)
      (relay : c.relay = some ⟨number, .opened⟩) :
      Rounds c id task (.encrypted id' true)
        ⟨{ c with written := c.written ++ [
            { call := id
              peerUserId := task.peerUserId
              recipientId := d
              recipientDevice := device
              senderId := c.userId
              senderDevice := c.deviceId
              text := task.text
              clientRef := if d = task.peerUserId then some task.ref else none }] },
          some { task with stage := .next }⟩
  | drops {id' : Nat} {d : String} {device : Int} {accepted : Bool}
      (stage : task.stage = .encrypting d device)
      (closed : accepted = true → ∀ number, c.relay ≠ some ⟨number, .opened⟩) :
      Rounds c id task (.encrypted id' accepted) ⟨c, some { task with stage := .next }⟩

/-- Every way the client moves. -/
inductive Moves (c : Client) : Action → Client → Prop where
  | turns {id : Nat} {task : Send} {a : Action} {round : Round} (called : a.call = some id)
      (found : c.sends.lookup id = some task) (rounds : Rounds c id task a round) :
      Moves c a (Client.after id round)
  | rejects {p text ref freshRef : String} {clientRef : Option String} {now : Int} :
      Moves c (.sendText p text clientRef freshRef now)
        { c with ended := c.ended ++ [⟨c.calls, p, ref, false⟩], calls := c.calls + 1 }
  | calls {text freshRef : String} {clientRef : Option String} {now : Int} (task : Send)
      (stage : task.stage = .listing ∨ task.stage = .next ∧
        ∃ at_, c.peerDevices.lookup task.peerUserId = some ⟨task.devices, at_⟩) :
      Moves c (.sendText task.peerUserId text clientRef freshRef now)
        { c with sends := c.sends.insert c.calls task, calls := c.calls + 1 }
  | delivers (env : Inbound) : Moves c (.deliver env) (c.deliver env)
  | decrypts {env : Inbound} {reply : Option String} {frame : Nat}
      (pending : c.inbound.lookup frame = some env) :
      Moves c (.decrypted frame reply) (c.decrypted frame env reply)
  | reconnects {a : Action} {userId : Option String} {deviceId : Int} {relay : Option Socket}
      {connections : Nat} {identity : FinMap String (Option String)} (idle : a.call = none) :
      Moves c a
        { c with
          userId := userId
          deviceId := deviceId
          relay := relay
          connections := connections
          peerIdentity := identity }

variable {c c' : Client} {id : Nat} {task : Send} {a : Action} {round : Round}

theorem rounds_loop {id' : Nat} (stage : task.stage = .next) :
    Rounds c id task (.loop id') (c.loop id task) := by
  unfold Client.loop
  split
  · next done => exact .ends stage done
  · next d rest more =>
    by_cases own : some d = c.userId
    · rw [if_pos own]
      exact .skips stage more own
    · rw [if_neg own]
      cases known : c.peerDevice.lookup d with
      | none => exact .fetches stage more own known
      | some device =>
        dsimp only
        split
        · exact .knows stage more own known
        · exact .backfills stage more own known

theorem rounds_encrypted {id' : Nat} {accepted : Bool}
    (went : c.encrypted id task accepted = some round) :
    Rounds c id task (.encrypted id' accepted) round := by
  unfold Client.encrypted at went
  split at went
  · next d device stage =>
    cases went
    cases accepted with
    | false => exact .drops stage (fun contra => absurd contra (by decide))
    | true =>
      rw [if_pos rfl]
      unfold Client.sendEnvelope
      split
      · next number relay => exact .writes stage relay
      · next closed => exact .drops stage fun _ number relay => closed number relay
  · cases went

theorem rounds_of_round (went : c.round id task a = some round) : Rounds c id task a round := by
  cases a with
  | listed id' reply now =>
    obtain ⟨stage, same⟩ := Option.ite_none_right_eq_some.mp went
    cases same
    exact .listed stage
  | loop id' =>
    obtain ⟨stage, same⟩ := Option.ite_none_right_eq_some.mp went
    cases same
    exact rounds_loop stage
  | fetched id' reply =>
    simp only [Client.round, Client.fetched] at went
    split at went
    · next d stage =>
      cases reply with
      | none =>
        cases went
        exact .unbundled stage
      | some bundle =>
        cases went
        exact .establishes stage
    · next d device stage =>
      cases went
      cases reply with
      | none => exact .backfilled stage
      | some bundle => exact .backfilled stage
    · cases went
  | established id' accepted =>
    simp only [Client.round, Client.established] at went
    split at went
    · next d bundle stage =>
      cases accepted with
      | false =>
        cases went
        exact .refused stage
      | true =>
        cases went
        exact .accepted stage
    · cases went
  | encrypt id' =>
    simp only [Client.round, Client.encrypt] at went
    split at went
    · next d device stage =>
      cases went
      exact .encrypts stage
    · cases went
  | encrypted id' accepted => exact rounds_encrypted went
  | _ => cases went

/-- A call of `sendText` is rejected at once, or starts. -/
theorem moves_sendText (c : Client) (p text : String) (clientRef : Option String)
    (freshRef : String) (now : Int) :
    Moves c (.sendText p text clientRef freshRef now) (c.sendText p text clientRef freshRef now) := by
  unfold Client.sendText
  dsimp only
  split
  · exact .rejects
  · split
    · next cached fresh =>
      obtain ⟨found, -⟩ := Option.filter_eq_some_iff.mp fresh
      exact .calls ⟨p, text, clientRef.getD freshRef, cached.devices, .next⟩
        (.inr ⟨rfl, cached.at_, found⟩)
    · exact .calls ⟨p, text, clientRef.getD freshRef, [], .listing⟩ (.inl rfl)

/-- A call that goes on takes a turn. -/
theorem moves_goOn (called : a.call = some id) (went : c.goOn id a = some c') :
    Moves c a c' := by
  obtain ⟨task, found, went⟩ := Option.bind_eq_some_iff.mp went
  obtain ⟨round, turned, rfl⟩ := Option.map_eq_some_iff.mp went
  exact .turns called found (rounds_of_round turned)

theorem moves_of_step (moved : c.step a = some c') : Moves c a c' := by
  cases a with
  | resume userId deviceId =>
    cases moved
    exact .reconnects rfl
  | connectRelay =>
    simp only [Client.step] at moved
    split at moved
    · cases moved
      exact .reconnects rfl
    · cases moved
      exact .reconnects rfl
  | opened =>
    simp only [Client.step] at moved
    split at moved
    · cases moved
      exact .reconnects rfl
    · cases moved
  | deleteAccount | setPeerIdentityKey | closing | handleSocketClosed | close =>
    cases moved
    exact .reconnects rfl
  | sendText p text clientRef freshRef now =>
    cases moved
    exact moves_sendText ..
  | listed | loop | fetched | established | encrypt | encrypted => exact moves_goOn rfl moved
  | deliver env =>
    obtain ⟨-, same⟩ := Option.ite_none_right_eq_some.mp moved
    cases same
    exact .delivers env
  | decrypted frame reply =>
    obtain ⟨env, pending, rfl⟩ := Option.map_eq_some_iff.mp moved
    exact .decrypts pending

/-- An action that lets a call go on moves only that call. -/
theorem turn_of_step (called : a.call = some id) (found : c.sends.lookup id = some task)
    (moved : c.step a = some c') :
    ∃ round, Rounds c id task a round ∧ c' = Client.after id round := by
  cases moves_of_step moved with
  | turns called' found' rounds =>
    cases called.symm.trans called'
    cases found.symm.trans found'
    exact ⟨_, rounds, rfl⟩
  | reconnects idle => cases idle.symm.trans called
  | rejects | calls | delivers | decrypts => cases called

/-- What a call leaves alone until its next await. -/
theorem Rounds.keeps (rounds : Rounds c id task a round) :
    round.client.sends = c.sends ∧ round.client.calls = c.calls ∧
      round.client.inbound = c.inbound ∧ round.client.frames = c.frames ∧
      round.client.surfaced = c.surfaced := by
  cases rounds <;> exact ⟨rfl, rfl, rfl, rfl, rfl⟩

/-- The calls after one of them has gone on. -/
theorem Rounds.lookup_after (rounds : Rounds c id task a round) (other : Nat) :
    (Client.after id round).sends.lookup other =
      if other = id then round.call else c.sends.lookup other := by
  unfold Client.after
  dsimp only
  cases round.call with
  | none => rw [FinMap.lookup_erase_apply, rounds.keeps.1]
  | some task' => rw [FinMap.lookup_insert_apply, rounds.keeps.1]

/-- The calls under way are among those that were made. -/
def Numbered (c : Client) : Prop := ∀ id task, c.sends.lookup id = some task → id < c.calls

theorem step_numbered (numbered : Numbered c) (moved : c.step a = some c') : Numbered c' := by
  cases moves_of_step moved with
  | turns called found rounds =>
    intro other task' found'
    rw [rounds.lookup_after] at found'
    rw [Client.after, rounds.keeps.2.1]
    split at found'
    · next same =>
      subst same
      exact numbered _ _ found
    · exact numbered other task' found'
  | rejects => exact fun id task found => Nat.lt_succ_of_lt (numbered id task found)
  | calls task stage =>
    intro id task' found
    rw [FinMap.lookup_insert_apply] at found
    split at found
    · next same => exact same ▸ Nat.lt_succ_self _
    · exact Nat.lt_succ_of_lt (numbered id task' found)
  | @decrypts env reply frame pending => cases reply with | none | some text => exact numbered
  | delivers env | reconnects => exact numbered

theorem reached_numbered {ok : Client → Action → Prop} (reached : client.Reached ok c) :
    Numbered c :=
  reached.invariant Numbered
    (fun s started => by subst started; intro id task found; cases found)
    fun _ _ _ numbered _ moved => step_numbered numbered moved

theorem ahead_iff {d : String} : task.ahead d = true ↔
    task.stage = .listing ∨ d ∈ task.devices ∨ task.stage.device = some d := by
  simp [Send.ahead, or_assoc]

/-- The device that the loop comes to was ahead. -/
private theorem ahead_taken {e d : String} {rest : List String} {stage : Stage}
    (more : task.devices = e :: rest) (listed : stage ≠ .listing)
    (at_ : stage.device = none ∨ stage.device = some e)
    (later : ({ task with devices := rest, stage := stage } : Send).ahead d = true) :
    task.ahead d = true := by
  rw [ahead_iff] at later ⊢
  rw [more]
  rcases later with same | inside | same
  · exact absurd same listed
  · exact .inr (.inl (List.mem_cons_of_mem _ inside))
  · rcases at_ with nothing | here
    · cases nothing.symm.trans same
    · obtain rfl := Option.some.inj (here.symm.trans same)
      exact .inr (.inl List.mem_cons_self)

/-- A call that stays at its device, or is done with it, has no new one ahead. -/
private theorem ahead_stays {d : String} {stage : Stage} (listed : stage ≠ .listing)
    (at_ : stage.device = none ∨ stage.device = task.stage.device)
    (later : ({ task with stage := stage } : Send).ahead d = true) : task.ahead d = true := by
  rw [ahead_iff] at later ⊢
  rcases later with same | inside | same
  · exact absurd same listed
  · exact .inr (.inl inside)
  · rcases at_ with nothing | here
    · cases nothing.symm.trans same
    · exact .inr (.inr (here.symm.trans same))

/-- A call stays with its peer, and never comes back to a device it is done with. -/
theorem Rounds.shrinks (rounds : Rounds c id task a round) {task' : Send}
    (called : round.call = some task') : task'.peerUserId = task.peerUserId ∧
      ∀ d, task'.ahead d = true → task.ahead d = true := by
  cases rounds with
  | listed stage =>
    cases called
    exact ⟨rfl, fun d _ => ahead_iff.mpr (.inl stage)⟩
  | ends => cases called
  | skips stage more =>
    cases called
    exact ⟨rfl, fun d => ahead_taken more (by simp) (.inl rfl)⟩
  | fetches stage more | backfills stage more | knows stage more =>
    cases called
    exact ⟨rfl, fun d => ahead_taken more (by simp) (.inr rfl)⟩
  | unbundled stage | refused stage | writes stage relay | drops stage closed =>
    cases called
    exact ⟨rfl, fun d => ahead_stays (by simp) (.inl rfl)⟩
  | establishes stage | backfilled stage | accepted stage | encrypts stage =>
    cases called
    exact ⟨rfl, fun d => ahead_stays (by simp) (.inr (by rw [stage]; rfl))⟩

/-! ### Crypto operations in flight -/

/-- The addresses of the crypto operations in flight. -/
def Client.operations (c : Client) : List (String × Int) :=
  c.sends.values.filterMap (fun task => task.stage.operation) ++
    c.inbound.values.map fun env => (env.senderId, env.senderDevice)

/-- A turn of a call leaves the operations of the others, and perhaps one of its own. -/
theorem Rounds.operations_after (rounds : Rounds c id task a round) :
    ∃ rest, rest.Sublist c.operations ∧ (Client.after id round).operations =
      (round.call.bind fun task' => task'.stage.operation).toList ++ rest := by
  obtain ⟨sends, -, inbound, -⟩ := rounds.keeps
  refine ⟨(FinMap.values (c.sends.erase id)).filterMap (fun task => task.stage.operation) ++
    c.inbound.values.map fun env => (env.senderId, env.senderDevice), ?_, ?_⟩
  · exact ((FinMap.values_erase_sublist c.sends id).filterMap _).append_right _
  · unfold Client.operations Client.after
    dsimp only
    rw [inbound, sends]
    cases round.call with
    | none => rfl
    | some task' =>
      dsimp only
      rw [FinMap.values_insert, List.filterMap_cons]
      cases started : task'.stage.operation with
      | none => simp [started]
      | some address => simp [started]

/-- An operation is begun once a bundle is there, or once the session is. -/
theorem Rounds.begins (rounds : Rounds c id task a round) {address : String × Int}
    (begun : (round.call.bind fun task' => task'.stage.operation) = some address) :
    (∃ id' bundle d, a = .fetched id' (some bundle) ∧ task.stage = .fetching d ∧
        address = (d, bundle.deviceId)) ∨
      ∃ id' d device, a = .encrypt id' ∧ task.stage = .ensured d device ∧ address = (d, device) := by
  cases rounds with
  | establishes stage => exact .inl ⟨_, _, _, rfl, stage, (Option.some.inj begun).symm⟩
  | encrypts stage => exact .inr ⟨_, _, _, rfl, stage, (Option.some.inj begun).symm⟩
  | _ => cases begun

end Hwfa.ClientPipeline
