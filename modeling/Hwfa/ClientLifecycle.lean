import Hwfa.Machines
import Hwfa.Maps

/-!
The relay socket of `HwfaClient` (`packages/client/src/client.ts`, `relay.ts`,
`discovery.ts`): connecting, losing the socket, reconnecting, closing.

A call of `connectRelay` stands at one of its two awaits.  Its code between two
awaits runs at once, and so does what an event of a socket calls.  When an
access token is refreshed, when a socket opens, fails or closes, and when the
timer fires is up to the world, and so is what the application calls in
between.  A socket bears the number of the call that created it; it opens once
at most, not after `close()` was called on it, and is silent once it has closed.

The subscribers to the connection state are taken not to call back into the
client in the same turn.  A token, a user id or a push token that is null is the
empty string: the code tests them by truthiness only.  What travels over the
socket, the backoff jitter of the world and `maintainPreKeys`, which never
touches the socket, are left out.

`onboard`, `confirmOtp` and `linkWithCode` have requests of their own to make
before they come to `connectRelay`; such a call may begin before `close()` and
end after it.

`closed`, `shut`, `newest` and `breaches` are histories that no step reads.
-/

namespace Hwfa.ClientLifecycle

open Hwfa.Machines Hwfa.Maps

/-! ## Access tokens -/

/-- The tokens of `DiscoveryClient`, and its refreshes as promises. -/
structure Discovery where
  token : String := ""
  refresh_ : String := ""
  refreshing : Option Nat := none
  /-- the refreshes that have settled, and whether they were fulfilled -/
  outcomes : FinMap Nat Bool := ∅
  nextRefresh : Nat := 0

/-- `refresh`: concurrent refreshes collapse into one. -/
def Discovery.refresh (d : Discovery) : Discovery × Nat :=
  match d.refreshing with
  | some promise => (d, promise)
  | none => ({ d with refreshing := some d.nextRefresh, nextRefresh := d.nextRefresh + 1 }, d.nextRefresh)

/-- `ensureAccess`, and the refresh it awaits, if it awaits one; `expiring` is
what `expiringSoon` says of the access token. -/
def Discovery.ensureAccess (d : Discovery) (expiring : Bool) : Discovery × Option Nat :=
  if d.refresh_ = "" then (d, none)
  else if d.token ≠ "" ∧ expiring = false then (d, none)
  else (d.refresh.1, some d.refresh.2)

/-- The refresh in flight is answered with new tokens, or fails. -/
def Discovery.refreshed (d : Discovery) (reply : Option (String × String)) : Option Discovery :=
  d.refreshing.map fun promise =>
    let settled := { d with refreshing := none, outcomes := d.outcomes.insert promise reply.isSome }
    match reply with
    | some (token, refreshToken) =>
      { settled with token := token, refresh_ := if refreshToken ≠ "" then refreshToken else d.refresh_ }
    | none => settled

/-- How `await ensureAccess()` ends, if it has. -/
def Discovery.answer (d : Discovery) (awaited : Option Nat) : Option Bool :=
  match awaited with
  | none => some true
  | some promise => d.outcomes.lookup promise

/-! ## The client -/

inductive ConnectionState where
  | connecting
  | connected
  | offline
  deriving DecidableEq

inductive Phase where
  | connecting
  | opened
  /-- the error event of a socket that has not opened -/
  | failed
  | closed
  deriving DecidableEq

/-- A socket; `released` when `RelayConnection.close` has closed and forgotten it. -/
structure Socket where
  phase : Phase := .connecting
  released : Bool := false
  deriving DecidableEq

/-- Open or opening, and not on its way to be closed. -/
def Socket.live (s : Socket) : Bool :=
  !s.released && (s.phase = .connecting || s.phase = .opened)

/-- A frame given to the connection of this socket goes out. -/
def Socket.usable (s : Socket) : Bool := !s.released && s.phase = .opened

theorem Socket.live_of_usable {s : Socket} (usable : s.usable = true) : s.live = true := by
  simp only [Socket.usable, Bool.and_eq_true, decide_eq_true_eq] at usable
  simpa [Socket.live, usable.2] using usable.1

theorem Socket.live_of_connecting {s : Socket} (phase : s.phase = .connecting)
    (held : s.released = false) : s.live = true := by
  simp [Socket.live, phase, held]

@[simp] theorem Socket.live_closed (s : Socket) :
    Socket.live { s with phase := .closed } = false := by
  simp [Socket.live]

@[simp] theorem Socket.live_released (s : Socket) :
    Socket.live { s with released := true } = false := by
  simp [Socket.live]

/-- Where a `connectRelay` is. -/
inductive Call where
  /-- at `await ensureAccess()` -/
  | ensuring (awaited : Option Nat)
  /-- at `await relay.connect()`, with the outcome of that promise -/
  | opening (outcome : Option Bool)
  deriving DecidableEq

structure Client where
  discovery : Discovery := {}
  relay : Option Nat := none
  userId : String := ""
  pushToken : String := ""
  connState : ConnectionState := .offline
  intentionalClose : Bool := false
  reconnectAttempt : Nat := 0
  /-- the delay of the timer that is set -/
  reconnectTimer : Option Nat := none
  calls : FinMap Nat Call := ∅
  sockets : FinMap Nat Socket := ∅
  nextCall : Nat := 0
  /-- the calls of `onboard`, `confirmOtp` and `linkWithCode` that have not come
  to `connectRelay` yet -/
  onboarding : Nat := 0
  /-- history: `close()` has been called, and no connection requested since -/
  closed : Bool := false
  /-- history: `close()` has been called, and since then the application has
  called nothing that connects -/
  shut : Bool := false
  /-- history: the last socket created -/
  newest : Option Nat := none
  /-- history: the sockets opened or used while `shut` -/
  breaches : List Nat := []

def RECONNECT_BACKOFF_MS : List Nat := [1000, 2000, 5000, 10000, 15000]

def Client.breach (c : Client) (socket : Nat) : Client :=
  { c with breaches := if c.shut then socket :: c.breaches else c.breaches }

/-- `connectRelay` up to its first await. -/
def Client.connectRelay (c : Client) (expiring : Bool) : Client :=
  if c.userId = "" then c
  else
    { c with
      discovery := (c.discovery.ensureAccess expiring).1
      calls := c.calls.insert c.nextCall (.ensuring (c.discovery.ensureAccess expiring).2)
      nextCall := c.nextCall + 1 }

/-- A connection is requested: by a call of the application, if it is `asked`
for, or at the end of an onboarding that it asked for some time ago. -/
def Client.request (c : Client) (asked expiring : Bool) : Client :=
  if c.userId = "" then c
  else { c.connectRelay expiring with closed := false, shut := c.shut && !asked }

/-- The application calls `onboard`, `confirmOtp` or `linkWithCode`. -/
def Client.onboard (c : Client) : Client :=
  { c with onboarding := c.onboarding + 1, shut := false }

def Client.scheduleReconnect (c : Client) : Client :=
  if c.reconnectTimer.isSome || c.intentionalClose || c.userId = "" then c
  else
    let delay := RECONNECT_BACKOFF_MS[min c.reconnectAttempt (RECONNECT_BACKOFF_MS.length - 1)]?
    { c with reconnectTimer := some (delay.getD 0), reconnectAttempt := c.reconnectAttempt + 1 }

def Client.handleSocketClosed (c : Client) : Client :=
  if c.intentionalClose then { c with relay := none }
  else { c with relay := none, connState := .offline : Client }.scheduleReconnect

/-- The catch block of `connectRelay`. -/
def Client.connectFailed (c : Client) : Client :=
  { c with relay := none, connState := .offline : Client }.scheduleReconnect

def Client.forget (c : Client) (call : Nat) : Client := { c with calls := c.calls.erase call }

/-- `connectRelay` from its first await to its second, with an access token;
without `constructs` the constructor of the socket throws. -/
def Client.granted (c : Client) (call : Nat) (constructs : Bool) : Client :=
  if c.relay.isSome then c.forget call
  else if constructs then
    { c.breach call with
      intentionalClose := false
      connState := .connecting
      relay := some call
      sockets := c.sockets.insert call {}
      calls := c.calls.insert call (.opening none)
      newest := some call }
  else
    ({ c with intentionalClose := false, connState := .connecting : Client }.connectFailed).forget call

/-- A call goes on from `ensureAccess`; without a token it rejects. -/
def Client.ensured (c : Client) (call : Nat) (constructs : Bool) : Option Client :=
  match c.calls.lookup call with
  | some (.ensuring awaited) =>
    (c.discovery.answer awaited).map fun fulfilled =>
      if fulfilled && c.discovery.token ≠ "" then c.granted call constructs else c.forget call
  | _ => none

/-- A frame is sent over the relay connection, if there is one that takes it. -/
def Client.transmit (c : Client) : Client :=
  match c.relay with
  | some socket => if (c.sockets.lookup socket).any Socket.usable then c.breach socket else c
  | none => c

/-- The promise of `relay.connect()` settles, unless it has. -/
def Client.settle (c : Client) (socket : Nat) (outcome : Bool) : FinMap Nat Call :=
  if c.calls.lookup socket = some (.opening none) then
    c.calls.insert socket (.opening (some outcome))
  else c.calls

def Client.onOpen (c : Client) (socket : Nat) (s : Socket) : Client :=
  { c.breach socket with
    sockets := c.sockets.insert socket { s with phase := .opened }
    calls := c.settle socket true
    reconnectAttempt := 0
    connState := .connected }

def Client.onError (c : Client) (socket : Nat) (s : Socket) : Client :=
  { c with
    sockets := c.sockets.insert socket
      { s with phase := if s.phase = .connecting then .failed else s.phase }
    calls := c.settle socket false }

def Client.onClose (c : Client) (socket : Nat) (s : Socket) : Client :=
  { c with sockets := c.sockets.insert socket { s with phase := .closed } : Client }.handleSocketClosed

/-- A message; a deliver frame is answered by a receipt over the same socket. -/
def Client.onMessage (c : Client) (socket : Nat) (s : Socket) (delivers : Bool) : Client :=
  if delivers && s.usable then c.breach socket else c

/-- `connectRelay` goes on from `relay.connect()`. -/
def Client.connected (c : Client) (call : Nat) : Client :=
  let online := { c.forget call with connState := .connected }
  if c.pushToken ≠ "" then online.transmit else online

def Client.settled (c : Client) (call : Nat) : Option Client :=
  match c.calls.lookup call with
  | some (.opening (some true)) => some (c.connected call)
  | some (.opening (some false)) => some ((c.forget call).connectFailed)
  | _ => none

def Client.release (c : Client) : FinMap Nat Socket :=
  match c.relay with
  | some socket =>
    match c.sockets.lookup socket with
    | some s => c.sockets.insert socket { s with released := true }
    | none => c.sockets
  | none => c.sockets

def Client.close (c : Client) : Client :=
  { c with
    intentionalClose := true
    reconnectTimer := none
    sockets := c.release
    relay := none
    connState := .offline
    closed := true
    shut := true }

/-- `deleteAccount`, when Discovery has purged the account. -/
def Client.deleteAccount (c : Client) : Client :=
  { c with discovery := { c.discovery with token := "" }, userId := "" : Client }.close

inductive Action where
  | setTokens (token refreshToken : String)
  /-- `onboard`, `confirmOtp` or `linkWithCode` is called -/
  | onboard
  /-- one of them has verified or linked the device, and goes on to `connectRelay` -/
  | onboarded (userId token refreshToken : String) (expiring : Bool)
  /-- one of them fails before that -/
  | onboardFailed
  | resume (userId : String) (expiring : Bool)
  | connectRelay (expiring : Bool)
  | timer (expiring : Bool)
  /-- another request to Discovery is refused and refreshes -/
  | refresh
  | refreshed (reply : Option (String × String))
  | ensured (call : Nat) (constructs : Bool)
  | onOpen (socket : Nat)
  | onError (socket : Nat)
  | onClose (socket : Nat)
  | onMessage (socket : Nat) (delivers : Bool)
  | settled (call : Nat)
  | send
  | registerPushToken (token : String)
  | close
  | deleteAccount

def Client.step (c : Client) : Action → Option Client
  | .setTokens token refreshToken =>
    some { c with discovery := { c.discovery with token := token, refresh_ := refreshToken } }
  | .onboard => some c.onboard
  | .onboarded userId token refreshToken expiring =>
    if c.onboarding = 0 ∨ token = "" then none
    else
      let verified := { c.discovery with token := token, refresh_ := refreshToken }
      some ({ c with
        discovery := verified
        userId := userId
        onboarding := c.onboarding - 1 : Client }.request false expiring)
  | .onboardFailed =>
    if c.onboarding = 0 then none else some { c with onboarding := c.onboarding - 1 }
  | .resume userId expiring => some ({ c with userId := userId : Client }.request true expiring)
  | .connectRelay expiring => some (c.request true expiring)
  | .timer expiring =>
    if c.reconnectTimer.isSome then
      some ({ c with reconnectTimer := none : Client }.connectRelay expiring)
    else none
  | .refresh =>
    if c.discovery.refresh_ = "" then none else some { c with discovery := c.discovery.refresh.1 }
  | .refreshed reply => (c.discovery.refreshed reply).map fun d => { c with discovery := d }
  | .ensured call constructs => c.ensured call constructs
  | .onOpen socket =>
    (c.sockets.lookup socket).bind fun s =>
      if s.phase = .connecting ∧ s.released = false then some (c.onOpen socket s) else none
  | .onError socket =>
    (c.sockets.lookup socket).bind fun s =>
      if s.phase = .connecting ∨ s.phase = .opened then some (c.onError socket s) else none
  | .onClose socket =>
    (c.sockets.lookup socket).bind fun s =>
      if s.phase ≠ .closed then some (c.onClose socket s) else none
  | .onMessage socket delivers =>
    (c.sockets.lookup socket).bind fun s =>
      if s.phase = .opened then some (c.onMessage socket s delivers) else none
  | .settled call => c.settled call
  | .send => some c.transmit
  | .registerPushToken token => some { c with pushToken := token : Client }.transmit
  | .close => some c.close
  | .deleteAccount => some c.deleteAccount

def client : Machine Client Action where
  start c := c = {}
  step := Client.step

/-! ## What a step can do -/

/-- The socket whose event this is, or the outcome of whose `connect()`. -/
def socketOf : Action → Option Nat
  | .onOpen socket | .onError socket | .onClose socket | .onMessage socket _ | .settled socket =>
    some socket
  | _ => none

/-- Every way the client moves, with the guards that enable it. -/
inductive Moves (c : Client) : Action → Client → Prop where
  | tokens (discovery : Discovery) (apart : socketOf a = none) :
      Moves c a { c with discovery := discovery }
  | onboard : Moves c .onboard c.onboard
  | onboardFailed (awaited : c.onboarding ≠ 0) :
      Moves c .onboardFailed { c with onboarding := c.onboarding - 1 }
  | request (discovery : Discovery) (userId : String) (onboarding : Nat) (asked expiring : Bool)
      (apart : socketOf a = none) :
      Moves c a ({ c with
        discovery := discovery
        userId := userId
        onboarding := onboarding : Client }.request asked expiring)
  | timer (pending : c.reconnectTimer.isSome = true) :
      Moves c (.timer expiring) ({ c with reconnectTimer := none : Client }.connectRelay expiring)
  | granted (found : c.calls.lookup call = some (.ensuring awaited))
      (fulfilled : c.discovery.answer awaited = some true) (token : c.discovery.token ≠ "") :
      Moves c (.ensured call constructs) (c.granted call constructs)
  | refused (found : c.calls.lookup call = some (.ensuring awaited))
      (answered : c.discovery.answer awaited = some fulfilled)
      (without : fulfilled = false ∨ c.discovery.token = "") :
      Moves c (.ensured call constructs) (c.forget call)
  | onOpen (found : c.sockets.lookup socket = some s) (phase : s.phase = .connecting)
      (held : s.released = false) : Moves c (.onOpen socket) (c.onOpen socket s)
  | onError (found : c.sockets.lookup socket = some s)
      (phase : s.phase = .connecting ∨ s.phase = .opened) :
      Moves c (.onError socket) (c.onError socket s)
  | onClose (found : c.sockets.lookup socket = some s) (phase : s.phase ≠ .closed) :
      Moves c (.onClose socket) (c.onClose socket s)
  | onMessage (found : c.sockets.lookup socket = some s) (phase : s.phase = .opened) :
      Moves c (.onMessage socket delivers) (c.onMessage socket s delivers)
  | connected (found : c.calls.lookup call = some (.opening (some true))) :
      Moves c (.settled call) (c.connected call)
  | failed (found : c.calls.lookup call = some (.opening (some false))) :
      Moves c (.settled call) (c.forget call).connectFailed
  | send : Moves c .send c.transmit
  | registerPushToken :
      Moves c (.registerPushToken token) { c with pushToken := token : Client }.transmit
  | close : Moves c .close c.close
  | deleteAccount : Moves c .deleteAccount c.deleteAccount

variable {c c' : Client} {t k : Nat} {s : Socket}

theorem ensured_moves {constructs : Bool} (moved : c.ensured t constructs = some c') :
    Moves c (.ensured t constructs) c' := by
  unfold Client.ensured at moved
  split at moved
  · next awaited found =>
    obtain ⟨fulfilled, answered, moved⟩ := Option.map_eq_some_iff.mp moved
    split at moved
    · next access =>
      cases moved
      simp only [Bool.and_eq_true, decide_eq_true_eq] at access
      obtain ⟨rfl, token⟩ := access
      exact .granted found answered token
    · next without =>
      cases moved
      refine .refused found answered ?_
      cases fulfilled with
      | false => exact .inl rfl
      | true => exact .inr (by simpa using without)
  · cases moved

theorem settled_moves (moved : c.settled t = some c') : Moves c (.settled t) c' := by
  unfold Client.settled at moved
  split at moved
  · next found =>
    cases moved
    exact .connected found
  · next found =>
    cases moved
    exact .failed found
  · cases moved

/-- The executable step only moves as listed. -/
theorem step_moves {a : Action} (moved : c.step a = some c') : Moves c a c' := by
  cases a with
  | setTokens token refreshToken =>
    cases moved
    exact .tokens _ rfl
  | onboard =>
    cases moved
    exact .onboard
  | onboarded userId token refreshToken expiring =>
    simp only [Client.step, Option.ite_none_left_eq_some, Option.some.injEq] at moved
    obtain ⟨-, rfl⟩ := moved
    exact .request _ userId _ false expiring rfl
  | onboardFailed =>
    simp only [Client.step, Option.ite_none_left_eq_some, Option.some.injEq] at moved
    obtain ⟨awaited, rfl⟩ := moved
    exact .onboardFailed awaited
  | resume userId expiring =>
    cases moved
    exact .request c.discovery userId c.onboarding true expiring rfl
  | connectRelay expiring =>
    cases moved
    exact .request c.discovery c.userId c.onboarding true expiring rfl
  | timer expiring =>
    simp only [Client.step, Option.ite_none_right_eq_some, Option.some.injEq] at moved
    obtain ⟨pending, rfl⟩ := moved
    exact .timer pending
  | refresh =>
    simp only [Client.step, Option.ite_none_left_eq_some, Option.some.injEq] at moved
    obtain ⟨-, rfl⟩ := moved
    exact .tokens _ rfl
  | refreshed reply =>
    obtain ⟨d, -, rfl⟩ := Option.map_eq_some_iff.mp moved
    exact .tokens _ rfl
  | ensured call constructs => exact ensured_moves moved
  | onOpen socket =>
    obtain ⟨s, found, moved⟩ := Option.bind_eq_some_iff.mp moved
    simp only [Option.ite_none_right_eq_some, Option.some.injEq] at moved
    obtain ⟨⟨phase, held⟩, rfl⟩ := moved
    exact .onOpen found phase held
  | onError socket =>
    obtain ⟨s, found, moved⟩ := Option.bind_eq_some_iff.mp moved
    simp only [Option.ite_none_right_eq_some, Option.some.injEq] at moved
    obtain ⟨phase, rfl⟩ := moved
    exact .onError found phase
  | onClose socket =>
    obtain ⟨s, found, moved⟩ := Option.bind_eq_some_iff.mp moved
    simp only [Option.ite_none_right_eq_some, Option.some.injEq] at moved
    obtain ⟨phase, rfl⟩ := moved
    exact .onClose found phase
  | onMessage socket delivers =>
    obtain ⟨s, found, moved⟩ := Option.bind_eq_some_iff.mp moved
    simp only [Option.ite_none_right_eq_some, Option.some.injEq] at moved
    obtain ⟨phase, rfl⟩ := moved
    exact .onMessage found phase
  | settled call => exact settled_moves moved
  | send =>
    cases moved
    exact .send
  | registerPushToken token =>
    cases moved
    exact .registerPushToken
  | close =>
    cases moved
    exact .close
  | deleteAccount =>
    cases moved
    exact .deleteAccount

/-! ## What the pieces do -/

/-- `scheduleReconnect` touches the schedule only, and leaves a timer unless the
client was closed on purpose or has no identity. -/
theorem scheduleReconnect_eq (c : Client) : ∃ timer attempt,
    c.scheduleReconnect = { c with reconnectTimer := timer, reconnectAttempt := attempt } ∧
      (c.intentionalClose = false → c.userId ≠ "" → timer.isSome = true) ∧
      (c.intentionalClose = true ∨ c.reconnectTimer.isSome = true ∨ c.userId = "" →
        timer = c.reconnectTimer ∧ attempt = c.reconnectAttempt) := by
  by_cases kept : (c.reconnectTimer.isSome || c.intentionalClose || c.userId = "") = true
  · refine ⟨c.reconnectTimer, c.reconnectAttempt, if_pos kept, ?_, fun _ => ⟨rfl, rfl⟩⟩
    intro unclosed identity
    simpa [unclosed, identity] using kept
  · refine ⟨_, _, if_neg kept, fun _ _ => rfl, ?_⟩
    intro idle
    simp only [Bool.or_eq_true, decide_eq_true_eq, not_or] at kept
    rcases idle with closed | timer | anonymous
    · exact absurd closed kept.1.2
    · exact absurd timer kept.1.1
    · exact absurd anonymous kept.2

theorem connectFailed_eq (c : Client) : ∃ timer attempt,
    c.connectFailed =
      { c with
        relay := none
        connState := .offline
        reconnectTimer := timer
        reconnectAttempt := attempt } ∧
      (c.intentionalClose = false → c.userId ≠ "" → timer.isSome = true) ∧
      (c.intentionalClose = true ∨ c.reconnectTimer.isSome = true ∨ c.userId = "" →
        timer = c.reconnectTimer ∧ attempt = c.reconnectAttempt) :=
  scheduleReconnect_eq { c with relay := none, connState := .offline }

theorem handleSocketClosed_eq (c : Client) : ∃ state timer attempt,
    c.handleSocketClosed =
      { c with
        relay := none
        connState := state
        reconnectTimer := timer
        reconnectAttempt := attempt } ∧
      (c.intentionalClose = false → c.userId ≠ "" → timer.isSome = true) ∧
      (c.intentionalClose = true ∨ c.reconnectTimer.isSome = true ∨ c.userId = "" →
        timer = c.reconnectTimer ∧ attempt = c.reconnectAttempt) ∧
      (state = if c.intentionalClose then c.connState else .offline) := by
  unfold Client.handleSocketClosed
  split
  · next closed =>
    refine ⟨c.connState, c.reconnectTimer, c.reconnectAttempt, rfl, ?_, fun _ => ⟨rfl, rfl⟩, rfl⟩
    intro unclosed
    rw [closed] at unclosed
    cases unclosed
  · obtain ⟨timer, attempt, same, schedules, keeps⟩ :=
      scheduleReconnect_eq { c with relay := none, connState := .offline }
    exact ⟨.offline, timer, attempt, same, schedules, keeps, rfl⟩

/-- What is sent over the relay connection leaves a trace only while shut. -/
theorem transmit_eq (c : Client) : ∃ breaches, c.transmit = { c with breaches := breaches } ∧
    (breaches = c.breaches ∨ c.shut = true ∧ ∃ k s, c.relay = some k ∧
      c.sockets.lookup k = some s ∧ s.usable = true) := by
  unfold Client.transmit
  split
  · next k relay =>
    split
    · next carried =>
      obtain ⟨s, found, usable⟩ := (Option.any_eq_true _ _).mp carried
      refine ⟨_, rfl, ?_⟩
      by_cases shut : c.shut = true
      · exact .inr ⟨shut, k, s, relay, found, usable⟩
      · exact .inl (if_neg shut)
    · exact ⟨c.breaches, rfl, .inl rfl⟩
  · exact ⟨c.breaches, rfl, .inl rfl⟩

end Hwfa.ClientLifecycle
