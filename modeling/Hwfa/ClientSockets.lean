import Hwfa.ClientCoherence

/-!
Whether the client has one live socket at most, and whether the others leave it
alone.

`handleSocketClosed` and the catch block of `connectRelay` empty `relay` without
asking whose event it is.  The close event of a socket that `close()` has let go
of may arrive when the client is connecting again, and takes the new connection
out of `relay`; the reconnect then opens another one.  The condition excludes
that such an event finds anything to disturb.
-/

namespace Hwfa.ClientSockets

open Hwfa.Machines Hwfa.Maps Hwfa.ClientLifecycle Hwfa.ClientCoherence

/-- `handleSocketClosed` finds nothing to do. -/
def rested (c : Client) : Bool :=
  c.relay.isNone && (c.intentionalClose ||
    c.connState = .offline && (c.reconnectTimer.isSome || c.userId = ""))

/-- A superseded socket closes, or its `connect()` rejects, only when there is
nothing to disturb, and its `connect()` does not resolve. -/
def Undisturbed (c : Client) : Action → Prop
  | .onClose socket => c.newest = some socket ∨ rested c = true
  | .settled socket =>
    c.newest = some socket ∨ c.calls.lookup socket = some (.opening (some false)) ∧
      rested c = true ∧ c.connState = .offline
  | _ => True

instance (c : Client) : (a : Action) → Decidable (Undisturbed c a)
  | .onClose .. | .settled .. => inferInstanceAs (Decidable (_ ∨ _))
  | .setTokens .. | .onboard | .onboarded .. | .onboardFailed | .resume .. | .connectRelay .. | .timer .. | .refresh
  | .refreshed .. | .ensured .. | .onOpen .. | .onError .. | .onMessage .. | .send
  | .registerPushToken .. | .close | .deleteAccount => inferInstanceAs (Decidable True)

/-- A socket that is alive is the one in `relay`. -/
def Sole (c : Client) : Prop :=
  ∀ k s, c.sockets.lookup k = some s → s.live = true → c.relay = some k

/-- The relay field, the connection state and the reconnect schedule. -/
def SameConnection (c c' : Client) : Prop :=
  c'.relay = c.relay ∧ c'.connState = c.connState ∧ c'.reconnectTimer = c.reconnectTimer ∧
    c'.reconnectAttempt = c.reconnectAttempt

variable {c c' : Client} {t k : Nat} {s : Socket}

theorem Sole.quiet (sole : Sole c) (sockets : c'.sockets = c.sockets) (relay : c'.relay = c.relay) :
    Sole c' := by
  unfold Sole
  rw [sockets, relay]
  exact sole

/-- Without a relay connection nothing is alive. -/
theorem Sole.dead (sole : Sole c) (idle : c.relay = none) (found : c.sockets.lookup k = some s) :
    s.live = false := by
  cases live : s.live with
  | false => rfl
  | true =>
    rw [sole k s found live] at idle
    cases idle

/-- The relay connection is dropped when its socket is dead. -/
theorem sole_of_dead (dead : ∀ k s, c.sockets.lookup k = some s → s.live = false) : Sole c := by
  intro k s found live
  rw [dead k s found] at live
  cases live

/-- Only the newest socket can be alive, and it is not if it is dead. -/
theorem Sole.dead_of_newest (sole : Sole c) (coherent : Coherent c) (newest : c.newest = some k)
    (found : c.sockets.lookup k = some s) (dead : s.live = false) :
    ∀ k' s', c.sockets.lookup k' = some s' → s'.live = false := by
  intro k' s' found'
  cases live : s'.live with
  | false => rfl
  | true =>
    obtain ⟨-, newest', -⟩ := coherent.relay k' (sole k' s' found' live)
    rw [newest] at newest'
    cases newest'
    rw [found] at found'
    cases found'
    rw [dead] at live
    cases live

theorem Sole.insert {s' : Socket} (sole : Sole c) (found : c.sockets.lookup k = some s)
    (alive : s'.live = true → s.live = true) (sockets : c'.sockets = c.sockets.insert k s')
    (relay : c'.relay = c.relay) : Sole c' := by
  intro k' s₁ found' live
  rw [sockets, FinMap.lookup_insert_apply] at found'
  rw [relay]
  split at found'
  · next own =>
    cases found'
    subst own
    exact sole k' s found (alive live)
  · exact sole k' s₁ found' live

theorem transmit_sole (sole : Sole c) : Sole c.transmit := by
  obtain ⟨breaches, same, -⟩ := transmit_eq c
  rw [same]
  exact sole.quiet rfl rfl

theorem connectRelay_sole (sole : Sole c) (expiring : Bool) : Sole (c.connectRelay expiring) := by
  unfold Client.connectRelay
  split
  · exact sole
  · exact sole.quiet rfl rfl

theorem request_sole (sole : Sole c) (asked expiring : Bool) : Sole (c.request asked expiring) := by
  unfold Client.request
  split
  · exact sole
  · exact (connectRelay_sole sole expiring).quiet rfl rfl

/-- A socket is created only when none is alive. -/
theorem granted_sole {constructs : Bool} (sole : Sole c) : Sole (c.granted t constructs) := by
  unfold Client.granted
  split
  · exact sole.quiet rfl rfl
  · next idle =>
    have none : c.relay = none := by simpa using idle
    split
    · intro k s found live
      rw [FinMap.lookup_insert_apply] at found
      split at found
      · next own => rw [own]
      · rw [sole.dead none found] at live
        cases live
    · obtain ⟨timer, attempt, same, -⟩ :=
        connectFailed_eq { c with intentionalClose := false, connState := .connecting }
      rw [same]
      exact sole_of_dead fun k s found => sole.dead none found

/-- A close event drops the connection of the newest socket, or none. -/
theorem onClose_sole (coherent : Coherent c) (sole : Sole c)
    (undisturbed : Undisturbed c (.onClose k)) : Sole (c.onClose k s) := by
  obtain ⟨state, timer, attempt, same, -⟩ := handleSocketClosed_eq
    { c with sockets := c.sockets.insert k { s with phase := .closed } }
  rw [Client.onClose, same]
  apply sole_of_dead
  intro k' s' found'
  rw [FinMap.lookup_insert_apply] at found'
  split at found'
  · cases found'
    exact Socket.live_closed s
  · next other =>
    rcases undisturbed with newest | quiet
    · cases live : s'.live with
      | false => rfl
      | true =>
        obtain ⟨-, newest', -⟩ := coherent.relay k' (sole k' s' found' live)
        rw [newest] at newest'
        exact absurd (Option.some.inj newest').symm other
    · have idle : c.relay = none := by
        simp only [rested, Bool.and_eq_true, Option.isNone_iff_eq_none] at quiet
        exact quiet.1
      exact sole.dead idle found'

theorem failed_sole (coherent : Coherent c) (sole : Sole c)
    (found : c.calls.lookup t = some (.opening (some false)))
    (undisturbed : Undisturbed c (.settled t)) : Sole (c.forget t).connectFailed := by
  obtain ⟨timer, attempt, same, -⟩ := connectFailed_eq (c.forget t)
  rw [same]
  apply sole_of_dead
  obtain ⟨s, socket, dead⟩ := coherent.rejected t found
  rcases undisturbed with newest | ⟨-, quiet, -⟩
  · exact sole.dead_of_newest coherent newest socket dead
  · have idle : c.relay = none := by
      simp only [rested, Bool.and_eq_true, Option.isNone_iff_eq_none] at quiet
      exact quiet.1
    exact fun k s found => sole.dead idle found

theorem close_sole (coherent : Coherent c) (sole : Sole c) : Sole c.close := by
  apply sole_of_dead
  intro k s found
  exact coherent.close_dead sole found

theorem step_sole {a : Action} (coherent : Coherent c) (sole : Sole c)
    (undisturbed : Undisturbed c a) (moved : c.step a = some c') : Sole c' := by
  cases step_moves moved with
  | tokens discovery _ => exact sole.quiet rfl rfl
  | onboard => exact sole.quiet rfl rfl
  | onboardFailed _ => exact sole.quiet rfl rfl
  | request discovery userId onboarding asked expiring _ =>
    have identified : Sole
        { c with discovery := discovery, userId := userId, onboarding := onboarding } :=
      sole.quiet rfl rfl
    exact request_sole identified asked expiring
  | timer _ =>
    have fired : Sole { c with reconnectTimer := none } := sole.quiet rfl rfl
    exact connectRelay_sole fired _
  | granted _ _ _ => exact granted_sole sole
  | refused _ _ _ => exact sole.quiet rfl rfl
  | onOpen found phase held =>
    exact sole.insert found (fun _ => Socket.live_of_connecting phase held) rfl rfl
  | onError found phase =>
    refine sole.insert found ?_ rfl rfl
    rcases phase with phase | phase
    · simp [Socket.live, phase]
    · simp [Socket.live, phase]
  | onClose _ _ => exact onClose_sole coherent sole undisturbed
  | onMessage _ _ =>
    unfold Client.onMessage
    split
    · exact sole.quiet rfl rfl
    · exact sole
  | @connected call _ =>
    have online : Sole { c.forget call with connState := .connected } := sole.quiet rfl rfl
    unfold Client.connected
    simp only
    split
    · exact transmit_sole online
    · exact online
  | failed found => exact failed_sole coherent sole found undisturbed
  | send => exact transmit_sole sole
  | @registerPushToken token =>
    have registered : Sole { c with pushToken := token } := sole.quiet rfl rfl
    exact transmit_sole registered
  | close => exact close_sole coherent sole
  | deleteAccount =>
    exact close_sole (coherent.identified _ _ _) (sole.quiet rfl rfl)

theorem reached_sole (reached : client.Reached Undisturbed c) : Sole c := by
  refine reached.invariant_under Sole (fun _ => reached_coherent) ?_ ?_
  · rintro c rfl k s found
    cases found
  · intro c a c' coherent sole undisturbed moved
    exact step_sole coherent sole undisturbed moved

/-- What a superseded socket does changes nothing. -/
theorem stale_inert {a : Action} (coherent : Coherent c) (sole : Sole c)
    (undisturbed : Undisturbed c a) (moved : c.step a = some c') (event : socketOf a = some k)
    (superseded : c.newest ≠ some k) : SameConnection c c' := by
  cases step_moves moved with
  | onOpen found phase held =>
    -- a socket that opens is alive, so it is the newest
    cases event
    have relay := sole k _ found (Socket.live_of_connecting phase held)
    exact absurd (coherent.relay k relay).2.1 superseded
  | onError _ _ => exact ⟨rfl, rfl, rfl, rfl⟩
  | @onClose _ s found _ =>
    cases event
    have quiet := undisturbed.resolve_left superseded
    simp only [rested, Bool.and_eq_true, Option.isNone_iff_eq_none, Bool.or_eq_true,
      decide_eq_true_eq] at quiet
    obtain ⟨idle, quiet⟩ := quiet
    obtain ⟨state, timer, attempt, same, -, keeps, stated⟩ := handleSocketClosed_eq
      { c with sockets := c.sockets.insert k { s with phase := .closed } }
    rw [Client.onClose, same]
    have schedule := keeps (quiet.imp id And.right)
    refine ⟨idle.symm, ?_, schedule.1, schedule.2⟩
    rcases quiet with intentional | ⟨offline, -⟩
    · exact stated.trans (if_pos intentional)
    · rw [stated]
      simp [offline]
  | onMessage _ _ =>
    unfold Client.onMessage
    split
    · exact ⟨rfl, rfl, rfl, rfl⟩
    · exact ⟨rfl, rfl, rfl, rfl⟩
  | connected found =>
    cases event
    obtain ⟨rejected, -⟩ := undisturbed.resolve_left superseded
    rw [found] at rejected
    cases rejected
  | failed found =>
    cases event
    obtain ⟨-, quiet, offline⟩ := undisturbed.resolve_left superseded
    simp only [rested, Bool.and_eq_true, Option.isNone_iff_eq_none, Bool.or_eq_true,
      decide_eq_true_eq] at quiet
    obtain ⟨idle, quiet⟩ := quiet
    obtain ⟨timer, attempt, same, -, keeps⟩ := connectFailed_eq (c.forget k)
    rw [same]
    have schedule := keeps (quiet.imp id And.right)
    exact ⟨idle.symm, offline.symm, schedule.1, schedule.2⟩
  | tokens _ apart =>
    rw [apart] at event
    cases event
  | request _ _ _ _ _ apart =>
    rw [apart] at event
    cases event
  | _ => cases event

/-- **One live socket.** In every run in which the end of a superseded socket
finds nothing to disturb, one socket at most is alive, `relay` refers to it, and
no event of a superseded socket changes `relay`, the connection state or the
reconnect schedule. -/
theorem one_socket_is_live (reached : client.Reached Undisturbed c) :
    (∀ k s k' s', c.sockets.lookup k = some s → c.sockets.lookup k' = some s' →
      s.live = true → s'.live = true → k = k') ∧
    (∀ k s, c.sockets.lookup k = some s → s.live = true → c.relay = some k) ∧
    ∀ a c' k, Undisturbed c a → c.step a = some c' → socketOf a = some k → c.newest ≠ some k →
      SameConnection c c' := by
  have sole := reached_sole reached
  refine ⟨?_, sole, ?_⟩
  · intro k s k' s' found found' live live'
    have same := (sole k s found live).symm.trans (sole k' s' found' live')
    exact Option.some.inj same
  · intro a c' k undisturbed moved event superseded
    exact stale_inert (reached_coherent reached) sole undisturbed moved event superseded

/-- The client comes online and is closed. -/
def onceOnline : List Action :=
  [.setTokens "access" "refresh", .resume "alice" false, .ensured 0 true, .onOpen 0, .settled 0,
    .close]

/-- The first socket closes after the client has been closed for the second time. -/
theorem late_close_event_is_inert : ∃ c c', client.Reached Undisturbed c ∧
    c.step (.onClose 0) = some c' ∧ c.newest ≠ some 0 ∧ SameConnection c c' := by
  have observed : (client.checkedRun Undisturbed {}
      (onceOnline ++ [.connectRelay false, .ensured 1 true, .close])).map (fun c =>
        (rested c, c.newest, (c.step (.onClose 0)).isSome)) = some (true, some 1, true) := by
    decide +kernel
  obtain ⟨c, reached, seen⟩ := Machine.reached_of_observed observed (.start rfl)
  simp only [Prod.mk.injEq] at seen
  obtain ⟨quiet, newest, enabled⟩ := seen
  obtain ⟨c', moved⟩ := Option.isSome_iff_exists.mp enabled
  have superseded : c.newest ≠ some 0 := by simp [newest]
  exact ⟨c, c', reached, moved, superseded,
    (one_socket_is_live reached).2.2 (.onClose 0) c' 0 (Or.inr quiet) moved rfl superseded⟩

/-- The close event of the first socket arrives when the second is opening: it
takes it out of `relay`, and the timer opens a third one. -/
theorem late_close_event_opens_third_socket : ¬ ∀ c, client.Reachable c →
    ∀ k s k' s', c.sockets.lookup k = some s → c.sockets.lookup k' = some s' →
      s.live = true → s'.live = true → k = k' := by
  have observed : (client.run {} (onceOnline ++ [.connectRelay false, .ensured 1 true, .onClose 0,
      .timer false, .ensured 2 true])).map (fun c => (c.sockets.lookup 1, c.sockets.lookup 2)) =
      some (some {}, some {}) := by decide +kernel
  obtain ⟨c, reachable, seen⟩ := Machine.reachable_of_observed observed rfl
  simp only [Prod.mk.injEq] at seen
  intro sole
  have same := sole c reachable 1 {} 2 {} seen.1 seen.2 rfl rfl
  exact absurd same (by decide)

end Hwfa.ClientSockets
