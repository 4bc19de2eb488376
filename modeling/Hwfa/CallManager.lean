import Hwfa.Machines
import Hwfa.Maps
import Hwfa.Slots
import Hwfa.StatusStore

/-!
The call engine of the mobile app (`apps/mobile/src/call/manager.ts`, `store.ts`,
`wire.ts`).

A method runs at once from one await to the next; what it awaits answers in a step
of its own, and the method goes on with the state as it is then.  A `Stage` is such
a method with what it waits for.  Answers that the system gives (permissions,
streams, session descriptions, whether a constructor throws) come with the action.
Of time the engine keeps only the instants it notes: a timer fires in some later
step.
-/

namespace Hwfa.CallManager

open Hwfa.Machines Hwfa.Maps Hwfa.Slots Hwfa.Json
open Hwfa.StatusStore (identical)
open Hwfa.ConversationStore (base36)

/-! ## What the app shows -/

inductive CallStatus where
  | idle
  | outgoing
  | incoming
  | active
  | ended
  deriving DecidableEq

/-- What is `null` or not there at all is `none`. -/
structure CallState where
  status : CallStatus := .idle
  callId : Value := .undefined
  peerId : Option Text := none
  peerName : Option Text := none
  video : Bool := false
  muted : Bool := false
  cameraOff : Bool := false
  localUrl : Option Text := none
  remoteUrl : Option Text := none
  startedAt : Option Nat := none
  endedReason : Option String := none

def IDLE : CallState := {}

inductive Direction where
  | outgoing
  | incoming
  deriving DecidableEq

inductive Outcome where
  | completed
  | missed
  | declined
  | failed
  deriving DecidableEq

structure CallLogEntry where
  callId : Value
  peerId : Text
  peerName : Option Text
  video : Bool
  direction : Direction
  outcome : Outcome
  at_ : Nat

/-! ## Media and signals -/

inductive SignalType where
  | ring
  | accept
  | decline
  | ice
  | hangup
  deriving DecidableEq

def SignalType.text : SignalType → Text
  | .ring => utf16 "ring"
  | .accept => utf16 "accept"
  | .decline => utf16 "decline"
  | .ice => utf16 "ice"
  | .hangup => utf16 "hangup"

/-- A signal to a peer, as it is given to `buildCallBody`. -/
structure CallSignal where
  type : SignalType
  callId : Value
  video : Option Bool := none
  sdp : Value := .undefined
  candidate : Value := .undefined

/-- An `RTCIceCandidate`, with the number of the signal that it came in. -/
structure Candidate where
  signal : Nat
  candidate : Value

structure PeerConnection where
  closed : Bool := false
  remoteDescription : Bool := false
  /-- what `addIceCandidate` has been called with -/
  candidates : List Candidate := []

inductive TrackKind where
  | audio
  | video
  deriving DecidableEq

structure Track where
  kind : TrackKind
  enabled : Bool := true
  stopped : Bool := false
  deriving DecidableEq

structure MediaStream where
  url : Text
  tracks : List Track

/-- What `getUserMedia` gives for audio and, if it is asked for, video. -/
def userMedia (video : Bool) (url : Text) : MediaStream :=
  ⟨url, { kind := .audio } :: if video then [{ kind := .video }] else []⟩

def Track.stop (t : Track) : Track := { t with stopped := true }

def MediaStream.stop (s : MediaStream) : MediaStream := { s with tracks := s.tracks.map Track.stop }

def PeerConnection.close (p : PeerConnection) : PeerConnection := { p with closed := true }

/-- Whether one of the tracks of a kind is on. -/
def MediaStream.enabled (s : MediaStream) (kind : TrackKind) : Bool :=
  s.tracks.any fun t => t.kind = kind && t.enabled

/-- Switches the tracks of a kind on or off, each by itself. -/
def MediaStream.toggle (s : MediaStream) (kind : TrackKind) (enabled : Bool) : MediaStream :=
  { s with tracks := s.tracks.map fun t => if t.kind = kind then { t with enabled } else t }

def newCallId (now : Nat) (random : Text) : Value :=
  .string (utf16 "call-" ++ base36 now ++ unit '-' :: random)

/-! ## The engine -/

/-- The methods that attach local media. -/
inductive Placing where
  | start (video : Bool)
  | accept
  deriving DecidableEq

/-- The methods that set a remote description. -/
inductive Answering where
  | accept
  | onSignal
  deriving DecidableEq

/-- What a method waits for. -/
inductive Stage where
  /-- `ensurePermissions`, in `start` -/
  | starting (peerId : Text) (peerName : Option Text) (video : Bool)
  /-- `ensurePermissions`, in `accept` -/
  | accepting
  /-- `getUserMedia` -/
  | acquiring (placing : Placing) (video : Bool)
  /-- `attachLocalMedia`, which has returned -/
  | attached (placing : Placing)
  /-- `createOffer` -/
  | offering (video : Bool)
  /-- `setLocalDescription` of an offer -/
  | describingOffer (video : Bool) (offer : Value)
  /-- `setRemoteDescription` of a connection, and whether it is in effect -/
  | applying (answering : Answering) (connection : Nat) (applied : Bool)
  /-- `addIceCandidate`, with the candidates that are left to add -/
  | draining (answering : Answering) (queued : List Candidate)
  /-- `drainIce`, which has returned -/
  | drained (answering : Answering)
  /-- `createAnswer` -/
  | answering
  /-- `setLocalDescription` of an answer -/
  | describingAnswer (answer : Value)

structure Manager where
  pc : Slot PeerConnection := {}
  local_ : Slot MediaStream := {}
  remote : Option Text := none
  callId : Value := .null
  peerId : Option Text := none
  direction : Direction := .outgoing
  video : Bool := false
  answered : Bool := false
  pendingIce : List Candidate := []
  pendingOffer : Value := .null
  /-- the state of the call store -/
  state : CallState := IDLE
  log : List CallLogEntry := []
  /-- how many calls of `callStore.reset` are scheduled -/
  timers : Nat := 0
  /-- the methods that wait, by number -/
  tasks : FinMap Nat Stage := ∅
  calls : Nat := 0
  /-- how many signals have come in -/
  signals : Nat := 0
  /-- the signals handed to `sendText` -/
  sent : List (Text × CallSignal) := []

/-- Whether an id is there and not empty. -/
def named (id : Option Text) : Bool := id.any (· ≠ [])

namespace Manager

/-- A method begins to wait. -/
def awaits (c : Manager) (stage : Stage) : Manager :=
  { c with tasks := c.tasks.insert c.calls stage, calls := c.calls + 1 }

/-- A method that waited waits for something else. -/
def proceeds (c : Manager) (id : Nat) (stage : Stage) : Manager :=
  { c with tasks := c.tasks.insert id stage }

/-- A method ends, or throws. -/
def ends (c : Manager) (id : Nat) : Manager := { c with tasks := c.tasks.erase id }

def sendTo (c : Manager) (peerId : Text) (signal : CallSignal) : Manager :=
  { c with sent := c.sent ++ [(peerId, signal)] }

def signal (c : Manager) (signal : CallSignal) : Manager :=
  match c.peerId with
  | some peerId => if peerId ≠ [] then c.sendTo peerId signal else c
  | none => c

def addLog (c : Manager) (entry : CallLogEntry) : Manager :=
  { c with log := (entry :: c.log).take 100 }

/-- `finish` before it clears anything. -/
def logs (c : Manager) (outcome : Outcome) (now : Nat) : Manager :=
  match c.peerId with
  | some peerId =>
    if c.callId.truthy && peerId ≠ [] then
      c.addLog ⟨c.callId, peerId, c.state.peerName, c.video, c.direction, outcome, now⟩
    else c
  | none => c

def finish (c : Manager) (outcome : Outcome) (reason : String) (now : Nat) : Manager :=
  { c.logs outcome now with
    pc := (c.pc.update PeerConnection.close).clear
    local_ := (c.local_.update MediaStream.stop).clear
    remote := none
    callId := .null
    peerId := none
    answered := false
    pendingIce := []
    pendingOffer := .null
    state := { c.state with
      status := .ended, endedReason := some reason, localUrl := none, remoteUrl := none }
    timers := c.timers + 1 }

/-! ### `start` and `accept` -/

def start (c : Manager) (peerId : Text) (peerName : Option Text) (video : Bool) : Manager :=
  if c.pc.current.isSome then c else c.awaits (.starting peerId peerName video)

def accept (c : Manager) : Manager :=
  if c.direction = .incoming ∧ c.pendingOffer.truthy ∧ c.callId.truthy ∧ named c.peerId then
    c.awaits .accepting
  else c

/-- What `decline` and `hangup` tell the peer. -/
def leaves (c : Manager) (type : SignalType) : Manager :=
  if c.callId.truthy && named c.peerId then c.signal { type, callId := c.callId } else c

def decline (c : Manager) (now : Nat) : Manager := (c.leaves .decline).finish .declined "Declined" now

def hangup (c : Manager) (now : Nat) : Manager :=
  (c.leaves .hangup).finish (if c.answered then .completed else .missed) "Call ended" now

/-- `newPeerConnection`, whose constructor may throw, in a method that waits. -/
def connects (c : Manager) (id : Nat) (placing : Placing) (video built : Bool) : Manager :=
  if built then ({ c with pc := c.pc.fill {} }).proceeds id (.acquiring placing video) else c.ends id

/-- The part of `start` behind a permission that was granted. -/
def dials (c : Manager) (id : Nat) (peerId : Text) (peerName : Option Text) (video built : Bool)
    (now : Nat) (random : Text) : Manager :=
  let callId := newCallId now random
  ({ c with
    callId, peerId := some peerId, direction := .outgoing, video, answered := false
    state := { c.state with
      status := .outgoing, callId, peerId := some peerId, peerName, video, muted := false
      cameraOff := false, remoteUrl := none } }).connects id (.start video) video built

/-- The part of `start` behind a permission that was denied. -/
def denied (c : Manager) (id : Nat) : Manager :=
  ({ c with
    state := { c.state with status := .ended, endedReason := some "Permission denied" }
    timers := c.timers + 1 }).ends id

/-- `ensurePermissions` answers. -/
def permitted (c : Manager) (id : Nat) (granted built : Bool) (now : Nat) (random : Text) :
    Stage → Option Manager
  | .starting peerId peerName video =>
    some (if granted then c.dials id peerId peerName video built now random else c.denied id)
  | .accepting =>
    some (if granted then c.connects id .accept c.video built else (c.ends id).decline now)
  | _ => none

/-- `getUserMedia` answers.  The stream is held before its tracks are added, which throws
without a connection and may throw with one. -/
def acquired (c : Manager) (id : Nat) (url : Option Text) (added : Bool) : Stage → Option Manager
  | .acquiring placing video =>
    match url with
    | none => some (c.ends id)
    | some url =>
      let c := { c with local_ := c.local_.fill (userMedia video url) }
      some (if c.pc.current.isSome && added then
          ({ c with state := { c.state with localUrl := some url } }).proceeds id (.attached placing)
        else c.ends id)
  | _ => none

/-! ### Descriptions and candidates -/

/-- A method of the connection is called and waited for, which throws without one. -/
def invokes (c : Manager) (id : Nat) (stage : Stage) : Manager :=
  if c.pc.current.isSome then c.proceeds id stage else c.ends id

/-- `addIceCandidate` of a connection is called. -/
def adds (c : Manager) (n : Nat) (candidate : Candidate) : Manager :=
  { c with pc := c.pc.updateAt n fun p => { p with candidates := p.candidates ++ [candidate] } }

/-- The loop of `drainIce` up to its next await.  Without a connection every candidate
throws, which is caught. -/
def drainNext (c : Manager) (id : Nat) (answering : Answering) : List Candidate → Manager
  | [] => c.proceeds id (.drained answering)
  | candidate :: rest =>
    match c.pc.current with
    | some n => (c.adds n candidate).proceeds id (.draining answering rest)
    | none => c.proceeds id (.drained answering)

def drainIce (c : Manager) (id : Nat) (answering : Answering) : Manager :=
  if c.pc.current.isSome then
    ({ c with pendingIce := [] }).drainNext id answering c.pendingIce
  else c.proceeds id (.drained answering)

def activates (c : Manager) (now : Nat) : Manager :=
  { c with
    answered := true
    state := { c.state with status := .active, startedAt := some now } }

/-- A remote description is in effect; its promise has yet to resolve. -/
def described (c : Manager) (id : Nat) : Stage → Option Manager
  | .applying answering n false =>
    some (({ c with pc := c.pc.updateAt n fun p => { p with remoteDescription := true } }).proceeds
      id (.applying answering n true))
  | _ => none

/-- A promise resolves; `sdp` is what `createOffer` or `createAnswer` gives. -/
def resolved (c : Manager) (id : Nat) (sdp : Value) (built : Bool) (now : Nat) :
    Stage → Option Manager
  | .attached (.start video) => some (c.invokes id (.offering video))
  | .attached .accept =>
    some (match c.pc.current with
      | some n => if built then c.proceeds id (.applying .accept n false) else c.ends id
      | none => c.ends id)
  | .offering video => some (c.invokes id (.describingOffer video sdp))
  | .describingOffer video offer =>
    some ((c.signal { type := .ring, callId := c.callId, video := some video, sdp := offer }).ends id)
  | .applying answering _ true => some (c.drainIce id answering)
  | .draining answering queued => some (c.drainNext id answering queued)
  | .drained .accept => some (c.invokes id .answering)
  | .drained .onSignal => some ((c.activates now).ends id)
  | .answering => some (c.invokes id (.describingAnswer sdp))
  | .describingAnswer answer =>
    some (((c.signal { type := .accept, callId := c.callId, sdp := answer }).activates now).ends id)
  | _ => none

/-- A promise is rejected; only `drainIce` goes on. -/
def rejected (c : Manager) (id : Nat) : Stage → Option Manager
  | .draining answering queued => some (c.drainNext id answering queued)
  | .offering _ | .describingOffer _ _ | .applying _ _ false | .answering | .describingAnswer _ =>
    some (c.ends id)
  | _ => none

/-! ### Signals of peers -/

def busy (c : Manager) : Bool := c.pc.current.isSome || c.callId.truthy

def rings (c : Manager) (fromPeerId : Text) (signal : Value) : Manager :=
  let callId := signal.get "callId"
  let video := (signal.get "video").truthy
  let sdp := signal.get "sdp"
  if c.busy then c.sendTo fromPeerId { type := .decline, callId }
  else
    { c with
      callId, peerId := some fromPeerId, direction := .incoming, video
      pendingOffer := if sdp.nullish then .null else sdp
      state := { c.state with
        status := .incoming, callId, peerId := some fromPeerId, video, muted := false
        cameraOff := false, remoteUrl := none } }

def accepted (c : Manager) (signal : Value) (built : Bool) (now : Nat) : Manager :=
  match c.pc.current with
  | some n =>
    if identical (signal.get "callId") c.callId then
      if (signal.get "sdp").truthy then
        if built then c.awaits (.applying .onSignal n false) else c
      else c.activates now
    else c
  | none => c

/-- Nothing follows the call of `addIceCandidate`, so that no method waits. -/
def trickles (c : Manager) (signal : Value) (built : Bool) : Manager :=
  let candidate := signal.get "candidate"
  if identical (signal.get "callId") c.callId && candidate.truthy && built then
    match c.pc.current with
    | some n =>
      if c.pc.value.any PeerConnection.remoteDescription then c.adds n ⟨c.signals, candidate⟩
      else { c with pendingIce := c.pendingIce ++ [⟨c.signals, candidate⟩] }
    | none => { c with pendingIce := c.pendingIce ++ [⟨c.signals, candidate⟩] }
  else c

/-- The case of the switch in `onSignal`. -/
def typeOf (signal : Value) : Option SignalType :=
  [.ring, .accept, .ice, .decline, .hangup].find? fun t => signal.get "type" = .string t.text

/-- A signal as it was parsed; `built` says whether the constructor that it may lead to
takes what is in it. -/
def onSignal (c : Manager) (fromPeerId : Text) (signal : Value) (built : Bool) (now : Nat) :
    Manager :=
  let next := match typeOf signal with
    | some .ring => c.rings fromPeerId signal
    | some .accept => c.accepted signal built now
    | some .ice => c.trickles signal built
    | some .decline =>
      if identical (signal.get "callId") c.callId then c.finish .declined "Call declined" now
      else c
    | some .hangup =>
      if identical (signal.get "callId") c.callId then
        c.finish (if c.answered then .completed else .missed) "Call ended" now
      else c
    | none => c
  { next with signals := c.signals + 1 }

/-! ### The other buttons, and the events of connections -/

def toggleMute (c : Manager) : Manager :=
  match c.local_.value with
  | some s =>
    let enabled := s.enabled .audio
    { c with
      local_ := c.local_.update (MediaStream.toggle · .audio !enabled)
      state := { c.state with muted := enabled } }
  | none => c

def toggleCamera (c : Manager) : Manager :=
  match c.local_.value with
  | some s =>
    let enabled := s.enabled .video
    { c with
      local_ := c.local_.update (MediaStream.toggle · .video !enabled)
      state := { c.state with cameraOff := enabled } }
  | none => c

def icecandidate (c : Manager) (candidate : Option Value) : Manager :=
  match candidate with
  | some e =>
    if c.callId.truthy then
      c.signal {
        type := .ice, callId := c.callId
        candidate := .object
          [ (utf16 "candidate", e.get "candidate"), (utf16 "sdpMid", e.get "sdpMid"),
            (utf16 "sdpMLineIndex", e.get "sdpMLineIndex") ] }
    else c
  | none => c

/-- A remote track; of its streams only the url of the first is used. -/
def track (c : Manager) (url : Option Text) : Manager :=
  match url <|> c.remote with
  | some remote =>
    { c with remote := some remote, state := { c.state with remoteUrl := some remote } }
  | none => c

/-- Whether a connection state is `failed`, `disconnected` or `closed` comes with the event. -/
def connectionstatechange (c : Manager) (lost : Bool) (now : Nat) : Manager :=
  if lost && c.callId.truthy then
    c.finish (if c.answered then .completed else .failed) "Call ended" now
  else c

end Manager

/-! ## Runs -/

inductive Action where
  | start (peerId : Text) (peerName : Option Text) (video : Bool)
  | accept
  | decline (now : Nat)
  | hangup (now : Nat)
  | toggleMute
  | toggleCamera
  | signal (fromPeerId : Text) (signal : Value) (built : Bool) (now : Nat)
  | permitted (id : Nat) (granted built : Bool) (now : Nat) (random : Text)
  | acquired (id : Nat) (url : Option Text) (added : Bool)
  | described (id : Nat)
  | resolved (id : Nat) (sdp : Value) (built : Bool) (now : Nat)
  | rejected (id : Nat)
  | icecandidate (connection : Nat) (candidate : Option Value)
  | track (connection : Nat) (url : Option Text)
  | connectionstatechange (connection : Nat) (lost : Bool) (now : Nat)
  | timer

namespace Manager

/-- A connection has an event only once it is made, but also when it has been closed. -/
def made (c : Manager) (connection : Nat) (next : Manager) : Option Manager :=
  if connection < c.pc.made.length then some next else none

def step (c : Manager) : Action → Option Manager
  | .start peerId peerName video => some (c.start peerId peerName video)
  | .accept => some c.accept
  | .decline now => some (c.decline now)
  | .hangup now => some (c.hangup now)
  | .toggleMute => some c.toggleMute
  | .toggleCamera => some c.toggleCamera
  | .signal fromPeerId signal built now => some (c.onSignal fromPeerId signal built now)
  | .permitted id granted built now random =>
    (c.tasks.lookup id).bind (c.permitted id granted built now random)
  | .acquired id url added => (c.tasks.lookup id).bind (c.acquired id url added)
  | .described id => (c.tasks.lookup id).bind (c.described id)
  | .resolved id sdp built now => (c.tasks.lookup id).bind (c.resolved id sdp built now)
  | .rejected id => (c.tasks.lookup id).bind (c.rejected id)
  | .icecandidate connection candidate => c.made connection (c.icecandidate candidate)
  | .track connection url => c.made connection (c.track url)
  | .connectionstatechange connection lost now =>
    c.made connection (c.connectionstatechange lost now)
  | .timer => if 0 < c.timers then some { c with state := IDLE, timers := c.timers - 1 } else none

/-- No method waits, and no timer runs. -/
def Quiescent (c : Manager) : Prop := FinMap.values c.tasks = [] ∧ c.timers = 0

end Manager

def callManager : Machine Manager Action where
  start := fun c => c = {}
  step := Manager.step

end Hwfa.CallManager
