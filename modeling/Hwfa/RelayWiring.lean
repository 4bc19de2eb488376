import Hwfa.RelayProcess

/-!
How the hub's connection table fits the connections themselves, in every run.

`Wired` is the invariant the other results about the relay start from: a routed
key leads to a connection that carries this key and whose handler has not left
yet, and only a handler that has left has closed its channel.
-/

namespace Hwfa.RelayWiring

open Hwfa.Machines Hwfa.RelayEnvelope Hwfa.RelayHub Hwfa.RelayProcess

/-- The handler is past the critical section of `register` and before the one
of `unregister`. -/
def Attached : Pc → Prop
  | .flushing _ | .reading | .routing .. | .acking .. | .forwarding .. | .leaving => True
  | .registering | .unregistered | .channelClosed | .gone => False

/-- The connection a handler has captured for its next send. -/
def captured : Pc → Option ConnId
  | .routing target _ _ | .forwarding target _ => some target
  | _ => none

/-- The handler has closed its channel. -/
def Closed (pc : Pc) : Prop := pc = .channelClosed ∨ pc = .gone

theorem attached_not_closed {pc : Pc} (attached : Attached pc) : ¬ Closed pc := by
  rintro (rfl | rfl)
  · exact attached
  · exact attached

/-- The handler has not started the writer yet. -/
def Starting : Pc → Prop
  | .registering | .flushing _ => True
  | _ => False

/-- A connection the hub may hold under `key`. -/
def Holds (s : Relay) (key : String) (c : ConnId) : Prop :=
  ∃ cl, s.clients c = some cl ∧ cl.routeKey = key ∧ Attached cl.pc

structure Wired (s : Relay) : Prop where
  fresh : ∀ c, s.nextConn ≤ c → s.clients c = none
  keys : ∀ c cl, s.clients c = some cl → cl.routeKey = RelayEnvelope.routeKey cl.userID cl.deviceID
  live : ∀ key c, s.hub.conns key = some c → Holds s key c
  closed : ∀ c cl, s.clients c = some cl → cl.outClosed = true → Closed cl.pc
  known : ∀ c cl target, s.clients c = some cl → captured cl.pc = some target →
    ∃ clt, s.clients target = some clt
  unstarted : ∀ c cl, s.clients c = some cl → Starting cl.pc → cl.writer = .unstarted

/-- The identity of a connection: what no step changes. -/
def Same (cl cl' : Client) : Prop :=
  cl'.userID = cl.userID ∧ cl'.deviceID = cl.deviceID ∧ cl'.routeKey = cl.routeKey

variable {s s' : Relay} {c : ConnId} {cl : Client}

/-- Replacing the hub, the file or a history. -/
theorem Wired.replace (wired : Wired s) (clients : s'.clients = s.clients)
    (nextConn : s'.nextConn = s.nextConn)
    (live : ∀ key c, s'.hub.conns key = some c → Holds s key c) : Wired s' where
  fresh := by rw [clients, nextConn]; exact wired.fresh
  keys := by rw [clients]; exact wired.keys
  live := by unfold Holds; rw [clients]; exact live
  closed := by rw [clients]; exact wired.closed
  known := by rw [clients]; exact wired.known
  unstarted := by rw [clients]; exact wired.unstarted

/-- Changing one connection's record. -/
theorem Wired.modify (wired : Wired s) (f : Client → Client) (found : s.clients c = some cl)
    (same : Same cl (f cl))
    (attached : (∃ key, s.hub.conns key = some c) → Attached (f cl).pc)
    (closed : (f cl).outClosed = true → Closed (f cl).pc)
    (known : ∀ target, captured (f cl).pc = some target → ∃ clt, s.clients target = some clt)
    (unstarted : Starting (f cl).pc → (f cl).writer = .unstarted) :
    Wired (s.modify c f) := by
  have exists_after (d : ConnId) (before : ∃ cld, s.clients d = some cld) :
      ∃ cld, (s.modify c f).clients d = some cld := by
    obtain ⟨cld, before⟩ := before
    by_cases own : d = c
    · subst own
      exact ⟨f cl, modify_self f found⟩
    · exact ⟨cld, by rw [modify_ne f own, before]⟩
  refine ⟨?_, ?_, ?_, ?_, ?_, ?_⟩
  · intro d new
    have absent := wired.fresh d new
    have own : d ≠ c := by
      rintro rfl
      rw [found] at absent
      cases absent
    rw [modify_ne f own, absent]
  · intro d cl' after
    rcases modify_found_of found after with ⟨_, rfl⟩ | ⟨_, before⟩
    · rw [same.1, same.2.1, same.2.2]
      exact wired.keys c cl found
    · exact wired.keys d cl' before
  · intro key d connected
    obtain ⟨cld, before, keyed, pc⟩ := wired.live key d connected
    by_cases own : d = c
    · subst own
      rw [found] at before
      cases before
      exact ⟨f cl, modify_self f found, same.2.2.trans keyed, attached ⟨key, connected⟩⟩
    · exact ⟨cld, by rw [modify_ne f own, before], keyed, pc⟩
  · intro d cl' after
    rcases modify_found_of found after with ⟨_, rfl⟩ | ⟨_, before⟩
    · exact closed
    · exact wired.closed d cl' before
  · intro d cl' target after capture
    apply exists_after
    rcases modify_found_of found after with ⟨_, rfl⟩ | ⟨_, before⟩
    · exact known target capture
    · exact wired.known d cl' target before capture
  · intro d cl' after
    rcases modify_found_of found after with ⟨_, rfl⟩ | ⟨_, before⟩
    · exact unstarted
    · exact wired.unstarted d cl' before

/-- Moving a handler on among the points where it is attached. -/
theorem Wired.goto (wired : Wired s) (found : s.clients c = some cl) (pc : Pc)
    (opened : cl.outClosed = false) (attached : Attached pc)
    (known : ∀ target, captured pc = some target → ∃ clt, s.clients target = some clt)
    (onward : Starting pc → Starting cl.pc) : Wired (s.goto c pc) := by
  refine wired.modify _ found ⟨rfl, rfl, rfl⟩ (fun _ => attached) ?_ known ?_
  · intro closed
    rw [opened] at closed
    cases closed
  · exact fun starting => wired.unstarted c cl found (onward starting)

/-- Changing only what the writer and the channel hold. -/
theorem Wired.modify_writer (wired : Wired s) (f : Client → Client) (found : s.clients c = some cl)
    (same : Same cl (f cl)) (pc : (f cl).pc = cl.pc) (closed : (f cl).outClosed = cl.outClosed)
    (unstarted : cl.writer = .unstarted → (f cl).writer = .unstarted) : Wired (s.modify c f) := by
  refine wired.modify f found same ?_ ?_ ?_ ?_
  · rintro ⟨key, connected⟩
    obtain ⟨cl', before, _, attached⟩ := wired.live key c connected
    rw [found] at before
    cases before
    rwa [pc]
  · rw [pc, closed]
    exact wired.closed c cl found
  · rw [pc]
    exact fun target => wired.known c cl target found
  · rw [pc]
    exact fun starting => unstarted (wired.unstarted c cl found starting)

/-- A channel is open wherever its handler has not closed it. -/
theorem Wired.opened (wired : Wired s) (found : s.clients c = some cl) (running : ¬ Closed cl.pc) :
    cl.outClosed = false := by
  cases closed : cl.outClosed with
  | false => rfl
  | true => exact absurd (wired.closed c cl found closed) running

theorem Wired.send {target : ConnId} {msg : RelayMessage} (wired : Wired s)
    (sent : s.send target msg = some s') : Wired s' := by
  obtain ⟨clt, found, _, ⟨_, rfl⟩ | ⟨_, rfl⟩⟩ := send_cases sent
  · exact wired.modify_writer _ found ⟨rfl, rfl, rfl⟩ rfl rfl id
  · exact wired

/-- A send changes no record but for what the channel holds. -/
theorem send_found {target : ConnId} {msg : RelayMessage} (sent : s.send target msg = some s')
    (found : s.clients c = some cl) :
    ∃ cl', s'.clients c = some cl' ∧ Same cl cl' ∧ cl'.pc = cl.pc ∧
      cl'.outClosed = cl.outClosed := by
  obtain ⟨clt, target_found, _, ⟨_, rfl⟩ | ⟨_, rfl⟩⟩ := send_cases sent
  · by_cases own : c = target
    · subst own
      exact ⟨_, modify_self _ found, ⟨rfl, rfl, rfl⟩, rfl, rfl⟩
    · exact ⟨cl, by rw [modify_ne _ own, found], ⟨rfl, rfl, rfl⟩, rfl, rfl⟩
  · exact ⟨cl, found, ⟨rfl, rfl, rfl⟩, rfl, rfl⟩

/-- A handler moves on after its send has returned. -/
theorem Wired.sent {target : ConnId} {msg : RelayMessage} (wired : Wired s)
    (found : s.clients c = some cl) (pc : Pc) (running : ¬ Closed cl.pc)
    (sent : s.send target msg = some s') (attached : Attached pc) (no_target : captured pc = none)
    (onward : Starting pc → Starting cl.pc) : Wired (s'.goto c pc) := by
  obtain ⟨cl', found', _, pc', closed'⟩ := send_found sent found
  have opened := closed'.trans (wired.opened found running)
  refine (wired.send sent).goto found' pc opened attached ?_ (pc' ▸ onward)
  intro target capture
  rw [no_target] at capture
  cases capture

/-- A send of a handler on its own channel does not panic. -/
theorem Wired.own_send (wired : Wired s) (found : s.clients c = some cl) {msg : RelayMessage}
    (running : ¬ Closed cl.pc) : s.send c msg ≠ none := by
  rw [Ne, send_panics found, wired.opened found running]
  exact Bool.false_ne_true

/-- A handler past the attached points is not in the table. -/
theorem Wired.detached (wired : Wired s) (found : s.clients c = some cl)
    (left : ¬ Attached cl.pc) (held : ∃ key, s.hub.conns key = some c) : False := by
  obtain ⟨key, connected⟩ := held
  obtain ⟨cl', before, _, attached⟩ := wired.live key c connected
  rw [found] at before
  cases before
  exact left attached

/-- A new connection carries the key of its identity and has begun nothing. -/
theorem Wired.connect (wired : Wired s) (userID : String) (deviceID : Int64) :
    Wired (s.connect userID deviceID) := by
  have stays (d : ConnId) (cld : Client) (before : s.clients d = some cld) :
      (s.connect userID deviceID).clients d = some cld := by
    rw [connect_ne, before]
    rintro rfl
    rw [wired.fresh s.nextConn (Nat.le_refl _)] at before
    cases before
  refine ⟨?_, ?_, ?_, ?_, ?_, ?_⟩
  · intro d new
    have above : s.nextConn < d := new
    rw [connect_ne (Nat.ne_of_gt above)]
    exact wired.fresh d (Nat.le_of_lt above)
  · intro d cl' after
    rcases connect_found after with rfl | before
    · rfl
    · exact wired.keys d cl' before
  · intro key d connected
    obtain ⟨cld, before, held⟩ := wired.live key d connected
    exact ⟨cld, stays d cld before, held⟩
  · intro d cl' after closed
    rcases connect_found after with rfl | before
    · cases closed
    · exact wired.closed d cl' before closed
  · intro d cl' target after capture
    rcases connect_found after with rfl | before
    · cases capture
    · obtain ⟨clt, target_found⟩ := wired.known d cl' target before capture
      exact ⟨clt, stays target clt target_found⟩
  · intro d cl' after starting
    rcases connect_found after with rfl | before
    · rfl
    · exact wired.unstarted d cl' before starting

/-- `register` enters the connection under its key. -/
theorem Wired.register {now : Int} {wrote : Bool} (wired : Wired s)
    (found : s.clients c = some cl) (pc : cl.pc = .registering)
    (clients : s'.clients = (s.goto c (.flushing (kept now (s.hub.queue cl.routeKey)))).clients)
    (nextConn : s'.nextConn = s.nextConn)
    (hub : s'.hub = (s.hub.register c cl.routeKey now wrote s.disk).1) : Wired s' := by
  have opened := wired.opened found (by rw [pc]; simp [Closed])
  have moved := wired.goto found (.flushing (kept now (s.hub.queue cl.routeKey))) opened
    trivial (by simp [captured]) (by rw [pc]; exact id)
  refine moved.replace clients nextConn ?_
  intro key d connected
  rw [hub, (register_eq s.hub c cl.routeKey now wrote s.disk).1] at connected
  simp only [Function.update_apply] at connected
  split at connected
  · next own =>
    cases connected
    exact ⟨_, modify_self _ found, own.symm, trivial⟩
  · exact moved.live key d connected

/-- `unregister` takes the connection out of the table, and the handler moves past
the attached points. -/
theorem Wired.unregister (wired : Wired s) (found : s.clients c = some cl)
    (running : ¬ Closed cl.pc) :
    Wired ({ s with hub := s.hub.unregister c cl.routeKey }.goto c .unregistered) := by
  have detached : Wired { s with hub := s.hub.unregister c cl.routeKey } :=
    wired.replace rfl rfl fun key d connected => wired.live key d (unregister_conns connected).1
  refine detached.modify _ found ⟨rfl, rfl, rfl⟩ ?_ ?_ (by simp [captured]) False.elim
  · rintro ⟨key, connected⟩
    obtain ⟨before, kept⟩ := unregister_conns connected
    obtain ⟨cl', found', keyed, _⟩ := wired.live key c before
    rw [found] at found'
    cases found'
    exact absurd keyed.symm (kept rfl)
  · intro closed
    exact absurd closed (by simp [wired.opened found running])

/-- No step breaks the wiring. -/
theorem step_wired {a : Action} (wired : Wired s) (moved : s.step a = some s') : Wired s' := by
  cases step_moves moved with
  | connect userID deviceID => exact wired.connect userID deviceID
  | register found pc => exact wired.register found pc rfl rfl rfl
  | flush found pc sent =>
    exact wired.sent found _ (by rw [pc]; simp [Closed]) sent trivial rfl (by rw [pc]; exact id)
  | flushPanic found pc panicked =>
    exact absurd panicked (wired.own_send found (by rw [pc]; simp [Closed]))
  | startWriter found pc =>
    have opened := wired.opened found (by rw [pc]; simp [Closed])
    refine wired.modify _ found ⟨rfl, rfl, rfl⟩ (fun _ => trivial) ?_ (by simp [captured]) False.elim
    intro closed
    rw [opened] at closed
    cases closed
  | take found writer _ =>
    exact wired.modify_writer _ found ⟨rfl, rfl, rfl⟩ rfl rfl (by simp [writer])
  | write found writer =>
    exact wired.modify_writer _ found ⟨rfl, rfl, rfl⟩ rfl rfl (by simp [writer])
  | writeError found writer =>
    exact wired.modify_writer _ found ⟨rfl, rfl, rfl⟩ rfl rfl (by simp [writer])
  | drained found writer _ _ =>
    exact wired.modify_writer _ found ⟨rfl, rfl, rfl⟩ rfl rfl (by simp [writer])
  | ignore _ _ => exact wired
  | registerPush _ _ => exact wired.replace rfl rfl wired.live
  | routeLive found pc claimed connected =>
    have opened := wired.opened found (by rw [pc]; simp [Closed])
    obtain ⟨clt, target_found, -⟩ := wired.live _ _ connected
    next c cl env envelope target msg enqueuedAt now wrote =>
    have moved := wired.goto found (.routing target (s.hub.count.stamp env) msg.clientRef)
      opened trivial (by intro target capture; cases capture; exact ⟨clt, target_found⟩)
      False.elim
    exact moved.replace rfl rfl moved.live
  | routeOffline found pc claimed offline =>
    have opened := wired.opened found (by rw [pc]; simp [Closed])
    next c cl env envelope msg enqueuedAt now wrote =>
    have moved := wired.goto found (.acking (s.hub.count.stamp env).id msg.clientRef) opened
      trivial (by simp [captured]) False.elim
    exact moved.replace rfl rfl moved.live
  | receipt found pc status connected =>
    have opened := wired.opened found (by rw [pc]; simp [Closed])
    obtain ⟨clt, target_found, _⟩ := wired.live _ _ connected
    refine wired.goto found _ opened trivial ?_ False.elim
    intro target capture
    cases capture
    exact ⟨clt, target_found⟩
  | sendLive found pc sent =>
    next c cl target env clientRef s₁ =>
    have acked := wired.sent found (.acking env.id clientRef) (by rw [pc]; simp [Closed])
      sent trivial rfl False.elim
    exact acked.replace rfl rfl acked.live
  | sendLivePanic found pc panicked =>
    exact wired.goto found _ (wired.opened found (by rw [pc]; simp [Closed])) trivial
      (by simp [captured]) False.elim
  | ack found pc kind sent =>
    exact wired.sent found _ (by rw [pc]; simp [Closed]) sent trivial rfl False.elim
  | ackPanic found pc panicked =>
    exact absurd panicked (wired.own_send found (by rw [pc]; simp [Closed]))
  | forward found pc sent =>
    exact wired.sent found _ (by rw [pc]; simp [Closed]) sent trivial rfl False.elim
  | forwardPanic found pc panicked =>
    exact wired.goto found _ (wired.opened found (by rw [pc]; simp [Closed])) trivial
      (by simp [captured]) False.elim
  | readError found pc =>
    exact wired.goto found _ (wired.opened found (by rw [pc]; simp [Closed])) trivial
      (by simp [captured]) False.elim
  | unregister found pc => exact wired.unregister found (by rw [pc]; simp [Closed])
  | closeOut found pc opened =>
    refine wired.modify _ found ⟨rfl, rfl, rfl⟩ ?_ (fun _ => .inl rfl) (by simp [captured]) False.elim
    exact fun held => (wired.detached found (by rw [pc]; exact id) held).elim
  | closeTwice found pc closed =>
    have opened := wired.opened found (by rw [pc]; simp [Closed])
    rw [opened] at closed
    cases closed
  | closeConn found pc =>
    refine wired.modify _ found ⟨rfl, rfl, rfl⟩ ?_ (fun _ => .inr rfl) (by simp [captured]) False.elim
    exact fun held => (wired.detached found (by rw [pc]; exact id) held).elim
  | expire found => exact wired.modify_writer _ found ⟨rfl, rfl, rfl⟩ rfl rfl id

/-- The empty relay is wired. -/
theorem started_wired {hub : Hub} {disk : Option PersistedHub} (empty : ∀ key, hub.conns key = none) :
    Wired (started hub disk) where
  fresh := fun _ _ => rfl
  keys := fun _ _ found => by cases found
  live := fun key _ connected => by simp [started, empty key] at connected
  closed := fun _ _ found => by cases found
  known := fun _ _ _ found => by cases found
  unstarted := fun _ _ found => by cases found

/-- Every state of every run of the relay process is wired. -/
theorem reached_wired {ok : Relay → Action → Prop} (reached : process.Reached ok s) : Wired s := by
  refine reached.invariant Wired ?_ fun s a s' wired _ moved => step_wired wired moved
  rintro s ⟨path, pusher, rfl⟩
  exact started_wired fun _ => rfl

/-! ## A letter -/

/-- What Alice says to Bob in the runs of the relay. -/
def letter : Envelope where
  id := ""
  recipientID := "bob"
  recipientDevice := 1
  senderID := "alice"
  senderDevice := 1
  type := 2
  ciphertext := "AAEC"
  timestamp := 0

def sendLetter : Move :=
  .frame (some { kind := "send", envelope := some letter }) 1 1 true

end Hwfa.RelayWiring
