import Mathlib.Algebra.Group.Int.Defs
import Hwfa.DiscoveryStore
import Hwfa.RelayWiring

/-!
How long a connection of the relay lasts: the `/v1/relay` handler of `main.go`.

The handler verifies the access token, upgrades the connection, compares the expiry
with the clock and only then starts the session, and time may pass before every one
of these.  The relay runs with a clock in nanoseconds; a session is a request whose
token was verified.  A token is what `authtoken.Sign` wrote, its expiry the second
that the relay reads.  The timer of `time.AfterFunc` may be late, and `t.Stop` runs
when the handler returns.
-/

namespace Hwfa.RelaySessions

open Hwfa.Machines Hwfa.RelayHub Hwfa.RelayProcess Hwfa.RelayWiring
open Hwfa.DiscoveryStore (Token unix second)

/-- `authtoken.VerifyAccess` -/
def verifyAccess (token : Token) (now : Int) : Option (String × Int) :=
  match token.verify now with
  | some (uid, kind) => if kind = "access" then some (uid, unix token.expiresAt) else none
  | none => none

/-- The longest `time.Duration`. -/
def maxDuration : Int := 2 ^ 63 - 1

/-- `time.Until(time.Unix(exp, 0))` -/
def untilExpiry (exp now : Int) : Int := min (exp * second - now) maxDuration

/-- The timer that the expiry check arms. -/
def armed (exp now : Int) : Option Int :=
  if 0 < untilExpiry exp now then some (now + untilExpiry exp now) else none

/-- Where the handler of a connection is. -/
inductive Stage where
  /-- the token has been verified -/
  | verified
  /-- the upgrade has failed, and the handler returned -/
  | dropped
  /-- the connection has been accepted -/
  | upgraded
  /-- past the expiry check; `timer` is when the timer fires that has been armed -/
  | serving (c : ConnId) (timer : Option Int)
  deriving DecidableEq

structure Session where
  userID : String
  deviceID : Int64
  exp : Int
  stage : Stage
  deriving DecidableEq

structure Timed where
  relay : Relay
  now : Int
  sessions : List Session := []

inductive Action where
  | tick (elapsed : Nat)
  | request (token : Token) (deviceID : Int64)
  | upgrade (i : Nat) (ok : Bool)
  /-- the `if` with `time.Until`, and `newClient` -/
  | check (i : Nat)
  | fire (i : Nat)
  | relay (a : RelayProcess.Action)

/-- Connections begin and expire by the handler's own steps. -/
def foreign : RelayProcess.Action → Bool
  | .connect .. => true
  | .at _ .expire => true
  | _ => false

def Timed.goto (w : Timed) (i : Nat) (ses : Session) (stage : Stage) : Timed :=
  { w with sessions := w.sessions.set i { ses with stage := stage } }

/-- The deferred `t.Stop`, once the handler has returned. -/
def stop (relay : Relay) (ses : Session) : Session :=
  match ses.stage with
  | .serving c _ =>
    if (relay.clients c).any (·.pc = .gone) then { ses with stage := .serving c none } else ses
  | _ => ses

def Timed.step (w : Timed) : Action → Option Timed
  | .tick elapsed => some { w with now := w.now + elapsed }
  | .request token deviceID =>
    match verifyAccess token w.now with
    | none => some w
    | some (userID, exp) =>
      some { w with sessions := w.sessions ++ [⟨userID, deviceID, exp, .verified⟩] }
  | .upgrade i ok => do
    let ses ← w.sessions[i]?
    if ses.stage = .verified then some (w.goto i ses (if ok then .upgraded else .dropped)) else none
  | .check i => do
    let ses ← w.sessions[i]?
    if ses.stage = .upgraded then
      let started := { w with relay := w.relay.connect ses.userID ses.deviceID }
      some (started.goto i ses (.serving w.relay.nextConn (armed ses.exp w.now)))
    else none
  | .fire i => do
    let ses ← w.sessions[i]?
    match ses.stage with
    | .serving c (some deadline) =>
      if deadline ≤ w.now then
        let relay ← w.relay.step (.at c .expire)
        some ({ w with relay := relay }.goto i ses (.serving c none))
      else none
    | _ => none
  | .relay a =>
    if foreign a then none
    else (w.relay.step a).map fun relay =>
      { w with relay := relay, sessions := w.sessions.map (stop relay) }

def timed : Machine Timed Action where
  start w := ∃ relay now, process.start relay ∧ w = { relay := relay, now := now }
  step := Timed.step

/-- The connection has been closed. -/
def Shut (relay : Relay) (c : ConnId) : Prop := (relay.clients c).any (! ·.socketOpen) = true

/-- After the expiry of its token an accepted connection is closed, or its timer is due;
and once it is served, it is closed, or has a timer. -/
def Ends (w : Timed) (ses : Session) : Prop :=
  match ses.stage with
  | .verified | .dropped => True
  | .upgraded => ¬ ses.exp * second < w.now
  | .serving c timer =>
    (ses.exp * second < w.now → Shut w.relay c ∨ ∃ deadline, timer = some deadline ∧ deadline ≤ w.now) ∧
      (Shut w.relay c ∨ timer.isSome)

/-- No session outlives its token. -/
def TokensBind (w : Timed) : Prop := ∀ ses ∈ w.sessions, Ends w ses

/-- The handler comes to the expiry check before the token expires. -/
def InTime (w : Timed) : Action → Prop
  | .tick elapsed => ∀ ses ∈ w.sessions, ses.stage = .upgraded → w.now + elapsed ≤ ses.exp * second
  | .upgrade i ok => ok = true → ∀ ses ∈ w.sessions[i]?, w.now ≤ ses.exp * second
  | .check i => ∀ ses ∈ w.sessions[i]?, w.now < ses.exp * second
  | _ => True

instance (w : Timed) (a : Action) : Decidable (InTime w a) := by
  unfold InTime
  split <;> infer_instance

/-- Every way the handlers and the relay move. -/
inductive TimedMoves (w : Timed) : Action → Timed → Prop where
  | tick : TimedMoves w (.tick elapsed) { w with now := w.now + elapsed }
  | refuse : TimedMoves w (.request token deviceID) w
  | request (valid : verifyAccess token w.now = some (userID, exp)) :
      TimedMoves w (.request token deviceID)
        { w with sessions := w.sessions ++ [⟨userID, deviceID, exp, .verified⟩] }
  | upgrade (found : w.sessions[i]? = some ses) (stage : ses.stage = .verified) :
      TimedMoves w (.upgrade i ok) (w.goto i ses (if ok then .upgraded else .dropped))
  | check (found : w.sessions[i]? = some ses) (stage : ses.stage = .upgraded) :
      TimedMoves w (.check i)
        ({ w with relay := w.relay.connect ses.userID ses.deviceID }.goto i ses
          (.serving w.relay.nextConn (armed ses.exp w.now)))
  | fire (found : w.sessions[i]? = some ses) (stage : ses.stage = .serving c (some deadline))
      (expired : w.relay.step (.at c .expire) = some relay) :
      TimedMoves w (.fire i) ({ w with relay := relay }.goto i ses (.serving c none))
  | relay (own : foreign a = false) (moved : w.relay.step a = some relay) :
      TimedMoves w (.relay a) { w with relay := relay, sessions := w.sessions.map (stop relay) }

/-! ### Sockets -/

variable {s s' t : Relay} {c : ConnId} {cl : Client} {w w' : Timed} {ses : Session}

theorem shut_iff : Shut s c ↔ ∃ cl, s.clients c = some cl ∧ cl.socketOpen = false := by
  unfold Shut
  cases s.clients c with
  | none => simp
  | some cl => simp

/-- A handler that has returned has closed its connection. -/
def GoneShut (s : Relay) : Prop :=
  ∀ c cl, s.clients c = some cl → cl.pc = .gone → cl.socketOpen = false

/-- No connection is forgotten, or opened again. -/
def Keeps (s s' : Relay) : Prop := ∀ c cl, s.clients c = some cl →
  ∃ cl', s'.clients c = some cl' ∧ (cl.socketOpen = false → cl'.socketOpen = false)

theorem Keeps.shut (keeps : Keeps s s') (shut : Shut s c) : Shut s' c := by
  obtain ⟨cl, found, closed⟩ := shut_iff.mp shut
  obtain ⟨cl', found', still⟩ := keeps c cl found
  exact shut_iff.mpr ⟨cl', found', still closed⟩

/-- What a step leaves of the sockets. -/
structure Sockets (s s' : Relay) : Prop where
  keeps : Keeps s s'
  gone : GoneShut s → GoneShut s'

theorem Sockets.of_same (clients : s'.clients = s.clients) : Sockets s s' where
  keeps _ cl found := ⟨cl, clients ▸ found, id⟩
  gone shut c cl found := shut c cl (clients ▸ found)

theorem Sockets.trans {s₁ : Relay} (first : Sockets s s₁) (second : Sockets s₁ s') : Sockets s s' where
  keeps c cl found := by
    obtain ⟨cl₁, found₁, closed₁⟩ := first.keeps c cl found
    obtain ⟨cl', found', closed'⟩ := second.keeps c cl₁ found₁
    exact ⟨cl', found', closed' ∘ closed₁⟩
  gone := second.gone ∘ first.gone

/-- One record is changed, and not so that its socket opens. -/
theorem Sockets.modify (f : Client → Client) (found : s.clients c = some cl)
    (closed : cl.socketOpen = false → (f cl).socketOpen = false)
    (gone : GoneShut s → (f cl).pc = .gone → (f cl).socketOpen = false) : Sockets s (s.modify c f) where
  keeps d cld before := by
    by_cases own : d = c
    · subst own
      rw [found] at before
      cases before
      exact ⟨f cl, modify_self f found, closed⟩
    · exact ⟨cld, (modify_ne f own).trans before, id⟩
  gone shut d cl' after returned := by
    rcases modify_found_of found after with ⟨-, rfl⟩ | ⟨-, before⟩
    · exact gone shut returned
    · exact shut d cl' before returned

/-- A handler goes on, without returning. -/
theorem Sockets.goto {pc : Pc} (same : t.clients = s.clients) (found : s.clients c = some cl)
    (going : pc ≠ .gone) : Sockets s (t.goto c pc) := by
  apply (Sockets.of_same same).trans
  exact .modify _ (same ▸ found) id fun _ returned => absurd returned going

/-- The writer goes on, or the channel is used. -/
theorem Sockets.writer (f : Client → Client) (found : s.clients c = some cl) (pc : (f cl).pc = cl.pc)
    (socket : (f cl).socketOpen = cl.socketOpen) : Sockets s (s.modify c f) := by
  apply Sockets.modify f found
  · exact socket.trans
  · intro shut returned
    exact socket.trans (shut c cl found (pc ▸ returned))

theorem Sockets.send {target : ConnId} {msg : RelayEnvelope.RelayMessage}
    (sent : s.send target msg = some s') : Sockets s s' := by
  obtain ⟨clt, found, -, ⟨-, rfl⟩ | ⟨-, rfl⟩⟩ := send_cases sent
  · exact .writer _ found rfl rfl
  · exact .of_same rfl

/-- After a send, the handler goes on. -/
theorem Sockets.sent {target : ConnId} {msg : RelayEnvelope.RelayMessage} {pc : Pc}
    (found : s.clients c = some cl) (sent : s.send target msg = some s')
    (same : t.clients = s'.clients) (going : pc ≠ .gone) : Sockets s (t.goto c pc) := by
  obtain ⟨cl', found', -⟩ := send_found sent found
  exact (Sockets.send sent).trans (.goto same found' going)

theorem Sockets.connect (wired : Wired s) (userID : String) (deviceID : Int64) :
    Sockets s (s.connect userID deviceID) where
  keeps d cld before := by
    have other : d ≠ s.nextConn := by
      rintro rfl
      rw [wired.fresh s.nextConn le_rfl] at before
      cases before
    exact ⟨cld, (connect_ne other).trans before, id⟩
  gone shut d cl' after returned := by
    rcases connect_found after with rfl | before
    · cases returned
    · exact shut d cl' before returned

/-- Every step of the relay leaves the sockets so. -/
theorem step_sockets {a : RelayProcess.Action} (wired : Wired s) (moved : s.step a = some s') :
    Sockets s s' := by
  cases step_moves moved with
  | connect userID deviceID => exact .connect wired userID deviceID
  | register found | routeLive found | routeOffline found | receipt found | readError found
  | unregister found => exact .goto rfl found (by simp)
  | sendLivePanic found | ackPanic found | forwardPanic found => exact .goto rfl found (by simp)
  | flush found _ sent | ack found _ _ sent | forward found _ sent | sendLive found _ sent =>
    exact .sent found sent rfl (by simp)
  | flushPanic found pc panicked =>
    exact absurd panicked (wired.own_send found (by rw [pc]; simp [Closed]))
  | take found | write found | writeError found | drained found => exact .writer _ found rfl rfl
  | ignore | registerPush => exact .of_same rfl
  | startWriter found | closeOut found => exact .modify _ found id fun _ returned => by cases returned
  | closeTwice found pc closed =>
    have left := wired.closed _ _ found closed
    rw [pc] at left
    exact absurd left (by simp [Closed])
  | closeConn found | expire found => exact .modify _ found (fun _ => rfl) fun _ _ => rfl

/-! ### What holds in every run -/

/-- A served session has its connection, and a timer for no later than the expiry. -/
def Served (w : Timed) (ses : Session) : Prop := ∀ c timer, ses.stage = .serving c timer →
  (∃ cl, w.relay.clients c = some cl) ∧ ∀ deadline ∈ timer, deadline ≤ ses.exp * second

structure Sane (w : Timed) : Prop where
  wired : Wired w.relay
  gone : GoneShut w.relay
  served : ∀ ses ∈ w.sessions, Served w ses

theorem Served.keeps {relay : Relay} (served : Served w ses) (keeps : Keeps w.relay relay) :
    Served { w with relay := relay } ses := by
  intro c timer serving
  obtain ⟨⟨cl, found⟩, early⟩ := served c timer serving
  obtain ⟨cl', found', -⟩ := keeps c cl found
  exact ⟨⟨cl', found'⟩, early⟩

/-- Stopping a timer is to have none. -/
theorem stop_cases (relay : Relay) (ses : Session) : stop relay ses = ses ∨
    ∃ c timer cl, ses.stage = .serving c timer ∧ relay.clients c = some cl ∧ cl.pc = .gone ∧
      stop relay ses = { ses with stage := .serving c none } := by
  unfold stop
  split
  · next c timer serving =>
    split
    · next returned =>
      obtain ⟨cl, found, gone⟩ := Option.any_eq_true _ _ |>.mp returned
      exact .inr ⟨c, timer, cl, serving, found, of_decide_eq_true gone, rfl⟩
    · exact .inl rfl
  · exact .inl rfl

/-- The sessions after one of them has been moved on. -/
theorem forall_goto {P : Session → Prop} {i : Nat} {stage : Stage} (held : ∀ ses ∈ w.sessions, P ses)
    (found : w.sessions[i]? = some ses) :
    (∀ other ∈ (w.goto i ses stage).sessions, P other) ↔ P { ses with stage := stage } := by
  obtain ⟨inside, -⟩ := List.getElem?_eq_some_iff.mp found
  constructor
  · intro all
    exact all _ (List.mem_set inside _)
  · intro one other member
    rcases List.mem_or_eq_of_mem_set member with old | rfl
    · exact held other old
    · exact one

theorem Sane.tick (sane : Sane w) (now : Int) : Sane { w with now := now } :=
  ⟨sane.wired, sane.gone, sane.served⟩

/-- A session that is not served yet, or stays so, moves on. -/
theorem Sane.goto {i : Nat} {stage : Stage} (sane : Sane w) (found : w.sessions[i]? = some ses)
    (served : Served w { ses with stage := stage }) : Sane (w.goto i ses stage) :=
  ⟨sane.wired, sane.gone, (forall_goto (P := Served w) sane.served found).mpr served⟩

/-- The relay goes on. -/
theorem Sane.relay (sane : Sane w) {a : RelayProcess.Action} {relay : Relay}
    (moved : w.relay.step a = some relay) : Sane { w with relay := relay } := by
  obtain ⟨keeps, gone⟩ := step_sockets sane.wired moved
  exact ⟨step_wired sane.wired moved, gone sane.gone,
    fun ses member => (sane.served ses member).keeps keeps⟩

theorem Sane.stopped (sane : Sane w) : Sane { w with sessions := w.sessions.map (stop w.relay) } := by
  refine ⟨sane.wired, sane.gone, ?_⟩
  intro ses member
  obtain ⟨before, inside, rfl⟩ := List.mem_map.mp member
  have served := sane.served before inside
  rcases stop_cases w.relay before with same | ⟨c, timer, cl, -, found, -, stopped⟩
  · rw [same]
    exact served
  · rw [stopped]
    rintro c' timer' serving
    cases serving
    exact ⟨⟨cl, found⟩, by simp⟩

/-! ### A step of a handler -/

theorem untilExpiry_pos {exp now : Int} : 0 < untilExpiry exp now ↔ now < exp * second := by
  unfold untilExpiry maxDuration
  omega

/-- It does not fire later than the token expires. -/
theorem armed_le {exp now : Int} : ∀ deadline ∈ armed exp now, deadline ≤ exp * second := by
  intro deadline set
  unfold armed at set
  split at set
  · cases set
    unfold untilExpiry
    omega
  · cases set

theorem armed_isSome {exp now : Int} : (armed exp now).isSome = true ↔ now < exp * second := by
  rw [← untilExpiry_pos]
  unfold armed
  split
  · next early => simp [early]
  · next late => simp [late]

theorem step_timed {a : Action} (moved : w.step a = some w') : TimedMoves w a w' := by
  cases a with
  | tick elapsed =>
    cases moved
    exact .tick
  | request token deviceID =>
    simp only [Timed.step] at moved
    split at moved
    · cases moved
      exact .refuse
    · next valid =>
      cases moved
      exact .request valid
  | upgrade i ok =>
    simp only [Timed.step, Option.bind_eq_bind, Option.bind_eq_some_iff,
      Option.ite_none_right_eq_some, Option.some.injEq] at moved
    obtain ⟨ses, found, stage, rfl⟩ := moved
    exact .upgrade found stage
  | check i =>
    simp only [Timed.step, Option.bind_eq_bind, Option.bind_eq_some_iff,
      Option.ite_none_right_eq_some, Option.some.injEq] at moved
    obtain ⟨ses, found, stage, rfl⟩ := moved
    exact .check found stage
  | fire i =>
    simp only [Timed.step, Option.bind_eq_bind, Option.bind_eq_some_iff] at moved
    obtain ⟨ses, found, moved⟩ := moved
    split at moved
    · next c deadline stage =>
      simp only [Option.ite_none_right_eq_some, Option.bind_eq_some_iff, Option.some.injEq] at moved
      obtain ⟨-, relay, expired, rfl⟩ := moved
      exact .fire found stage expired
    · cases moved
  | relay a =>
    simp only [Timed.step, Option.ite_none_left_eq_some, Option.map_eq_some_iff] at moved
    obtain ⟨own, relay, stepped, rfl⟩ := moved
    exact .relay (eq_false_of_ne_true own) stepped

theorem step_sane {a : Action} (sane : Sane w) (moved : w.step a = some w') : Sane w' := by
  cases step_timed moved with
  | tick => exact sane.tick _
  | refuse => exact sane
  | request =>
    refine ⟨sane.wired, sane.gone, ?_⟩
    intro ses member
    rcases List.mem_append.mp member with old | new
    · exact sane.served ses old
    · rw [List.mem_singleton.mp new]
      rintro c timer serving
      cases serving
  | @upgrade i ses ok found stage =>
    apply sane.goto found
    intro c timer serving
    cases ok with
    | true => cases serving
    | false => cases serving
  | @check i ses found stage =>
    have connected : Sane { w with relay := w.relay.connect ses.userID ses.deviceID } :=
      sane.relay (a := .connect ses.userID ses.deviceID) rfl
    apply connected.goto found
    rintro c timer serving
    cases serving
    exact ⟨⟨_, connect_new ..⟩, armed_le⟩
  | fire found stage expired =>
    have closed := sane.relay expired
    apply closed.goto found
    rintro c timer serving
    cases serving
    obtain ⟨connection, -⟩ := closed.served _ (List.mem_of_getElem? found) _ _ stage
    exact ⟨connection, by simp⟩
  | relay own stepped => exact (sane.relay stepped).stopped

theorem reachable_sane (reachable : timed.Reachable w) : Sane w := by
  apply reachable.invariant Sane
  · rintro w ⟨relay, now, ⟨path, pusher, rfl⟩, rfl⟩
    refine ⟨started_wired fun _ => rfl, ?_, by simp⟩
    intro c cl found
    cases found
  · intro w a w' sane _ moved
    exact step_sane sane moved

/-! ### The end of a session -/

/-- A session that ends in time still does when the relay goes on. -/
theorem Ends.keeps {relay : Relay} (ends : Ends w ses) (keeps : Keeps w.relay relay) :
    Ends { w with relay := relay } ses := by
  unfold Ends at ends ⊢
  split at ends
  · trivial
  · trivial
  · exact ends
  · obtain ⟨closing, pending⟩ := ends
    constructor
    · intro late
      exact (closing late).imp_left keeps.shut
    · exact pending.imp_left keeps.shut

/-- A handler that returns leaves a closed connection. -/
theorem Ends.stopped (ends : Ends w ses) (gone : GoneShut w.relay) : Ends w (stop w.relay ses) := by
  rcases stop_cases w.relay ses with same | ⟨c, timer, cl, -, found, returned, stopped⟩
  · rw [same]
    exact ends
  · have shut : Shut w.relay c := shut_iff.mpr ⟨cl, found, gone c cl found returned⟩
    rw [stopped]
    exact ⟨fun _ => .inl shut, .inl shut⟩

/-- Time passes: a session that was not checked yet may expire. -/
theorem ends_tick {elapsed : Nat} (served : Served w ses) (ends : Ends w ses) :
    Ends { w with now := w.now + elapsed } ses ↔
      (ses.stage = .upgraded → w.now + elapsed ≤ ses.exp * second) := by
  unfold Ends at ends ⊢
  cases stage : ses.stage with
  | verified => simp
  | dropped => simp
  | upgraded => simp
  | serving c timer =>
    rw [stage] at ends
    refine iff_of_true ⟨?_, ends.2⟩ (by simp)
    intro late
    refine ends.2.imp_right ?_
    intro set
    obtain ⟨deadline, same⟩ := Option.isSome_iff_exists.mp set
    have early := (served c timer stage).2 deadline same
    exact ⟨deadline, same, Int.le_trans early (Int.le_of_lt late)⟩

/-- The check arms a timer for a token that has not expired, and only then. -/
theorem ends_checked (ses : Session) :
    Ends { w with relay := w.relay.connect ses.userID ses.deviceID }
        { ses with stage := .serving w.relay.nextConn (armed ses.exp w.now) } ↔
      w.now < ses.exp * second := by
  have opened : ¬ Shut (w.relay.connect ses.userID ses.deviceID) w.relay.nextConn := by
    rw [shut_iff, connect_new]
    rintro ⟨cl, same, closed⟩
    cases same
    cases closed
  unfold Ends
  dsimp only
  rw [armed_isSome]
  constructor
  · rintro ⟨-, shut | early⟩
    · exact absurd shut opened
    · exact early
  · intro early
    exact ⟨fun late => absurd late (Int.lt_asymm early), .inr early⟩

theorem shut_of_expire (expired : s.step (.at c .expire) = some s') : Shut s' c := by
  cases step_moves expired with
  | expire found => exact shut_iff.mpr ⟨_, modify_self _ found, rfl⟩

/-- A step keeps every session within its token exactly if it is in time. -/
theorem binds_iff {a : Action} (sane : Sane w) (binds : TokensBind w) (moved : w.step a = some w') :
    TokensBind w' ↔ InTime w a := by
  cases step_timed moved with
  | tick =>
    constructor
    · intro after ses member
      exact (ends_tick (sane.served ses member) (binds ses member)).mp (after ses member)
    · intro early ses member
      exact (ends_tick (sane.served ses member) (binds ses member)).mpr (early ses member)
  | refuse => exact iff_of_true binds trivial
  | request =>
    refine iff_of_true ?_ trivial
    intro ses member
    rcases List.mem_append.mp member with old | new
    · exact binds ses old
    · rw [List.mem_singleton.mp new]
      trivial
  | @upgrade i ses ok found stage =>
    have moved_on : TokensBind (w.goto i ses (if ok then .upgraded else .dropped)) ↔
        Ends w { ses with stage := if ok then .upgraded else .dropped } := forall_goto binds found
    rw [moved_on]
    cases ok with
    | true => simp [Ends, InTime, found]
    | false => simp [Ends, InTime]
  | @check i ses found stage =>
    have connected : Sockets w.relay (w.relay.connect ses.userID ses.deviceID) :=
      .connect sane.wired ..
    have others : TokensBind { w with relay := w.relay.connect ses.userID ses.deviceID } :=
      fun other member => (binds other member).keeps connected.keeps
    have moved_on : TokensBind ({ w with relay := w.relay.connect ses.userID ses.deviceID }.goto i ses
        (.serving w.relay.nextConn (armed ses.exp w.now))) ↔ _ := forall_goto others found
    rw [moved_on]
    apply (ends_checked ses).trans
    simp [InTime, found]
  | @fire i ses c relay deadline found stage expired =>
    refine iff_of_true ?_ trivial
    have others : TokensBind { w with relay := relay } := fun other member =>
      (binds other member).keeps (step_sockets sane.wired expired).keeps
    have moved_on : TokensBind ({ w with relay := relay }.goto i ses (.serving c none)) ↔ _ :=
      forall_goto others found
    have shut := shut_of_expire expired
    exact moved_on.mpr ⟨fun _ => .inl shut, .inl shut⟩
  | relay own stepped =>
    refine iff_of_true ?_ trivial
    obtain ⟨keeps, gone⟩ := step_sockets sane.wired stepped
    intro ses member
    obtain ⟨before, inside, rfl⟩ := List.mem_map.mp member
    have ends := (binds before inside).keeps keeps
    exact ends.stopped (gone sane.gone)

/-- **No session outlives its token exactly if the expiry check comes in time.** The runs
of the relay in which, after every step, each accepted connection whose token has expired is
closed or has a timer that is due, and each one that is served is closed or has a timer, are
those in which every handler upgrades and comes to the expiry check before the token
expires. -/
theorem tokens_bind_iff_checked_in_time :
    timed.Reached InTime w ↔ timed.Throughout TokensBind w := by
  apply Machine.reached_iff_throughout
  · rintro w ⟨relay, now, -, rfl⟩ ses member
    cases member
  · intro w a w' reachable binds moved
    exact binds_iff (reachable_sane reachable) binds moved

/-- A token with two seconds left, and a handshake that takes as long. -/
def slowHandshake : List Action :=
  [ .request ⟨"laptop", "access", 2 * second⟩ 1, .upgrade 0 true, .tick 2000000000, .check 0,
    .relay (.at 0 (.register 2000 true)), .relay (.at 0 .startWriter), .tick 3600000000000 ]

/-- The sessions, the time and whether the first connection is open. -/
def lookAtSessions (w : Timed) : List Session × Int × Bool :=
  (w.sessions, w.now, (w.relay.clients 0).any (·.socketOpen))

/-- An hour after its token has expired, a connection is open and has no timer. -/
theorem slow_handshake_outlives_token : ¬ ∀ w, timed.Reachable w → TokensBind w := by
  have observed : (timed.run { relay := started (newHub "" false) none, now := 0 } slowHandshake).map
      lookAtSessions = some ([⟨"laptop", 1, 2, .serving 0 none⟩], 3602000000000, true) := by
    decide +kernel
  obtain ⟨w, reachable, seen⟩ := Machine.reachable_of_observed observed
    ⟨_, _, ⟨"", false, rfl⟩, rfl⟩
  obtain ⟨sessions, -, opened⟩ : w.sessions = _ ∧ w.now = _ ∧ (w.relay.clients 0).any (·.socketOpen) = true := by
    simpa only [lookAtSessions, Prod.mk.injEq] using seen
  intro always
  have ends : Ends w ⟨"laptop", 1, 2, .serving 0 none⟩ := always w reachable _ (by simp [sessions])
  obtain ⟨-, shut | armed⟩ := ends
  · obtain ⟨cl, found, closed⟩ := shut_iff.mp shut
    rw [found, Option.any_some, closed] at opened
    cases opened
  · cases armed

end Hwfa.RelaySessions
