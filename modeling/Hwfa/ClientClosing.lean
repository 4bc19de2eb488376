import Hwfa.ClientCoherence

/-!
Whether `close()` is final.

`close()` sets `intentionalClose`, and `connectRelay` resets it after its first
await.  A call that was waiting for its access token when the client was closed
goes on to open a socket, and one whose socket had opened goes on to report the
client connected.  So does the call with which an onboarding ends that began
before the client was closed.  The conditions exclude that such a call gets its
token or its socket while the client is shut, and closing while a socket is
alive that the client has lost sight of.
-/

namespace Hwfa.ClientClosing

open Hwfa.Machines Hwfa.Maps Hwfa.ClientLifecycle Hwfa.ClientCoherence

/-- The socket is the one in `relay`, or is not alive. -/
def InSight (c : Client) : Prop :=
  ∀ entry ∈ c.sockets.entries, entry.2.live = true → c.relay = some entry.1

/-- The call will go on to open a socket: its access token is there. -/
def admitted (c : Client) (call : Nat) : Bool :=
  match c.calls.lookup call with
  | some (.ensuring awaited) => c.discovery.answer awaited = some true && c.discovery.token ≠ ""
  | _ => false

/-- No call of `connectRelay` goes on while the client is shut, and no socket is
out of sight of `close()`. -/
def Settled (c : Client) : Action → Prop
  | .ensured call _ => admitted c call = true → c.shut = false
  | .settled call => c.calls.lookup call = some (.opening (some true)) → c.shut = false
  | .close | .deleteAccount => InSight c
  | _ => True

instance (c : Client) : Decidable (InSight c) := by
  unfold InSight
  infer_instance

instance (c : Client) : (a : Action) → Decidable (Settled c a)
  | .ensured .. | .settled .. => inferInstanceAs (Decidable (_ → _))
  | .close | .deleteAccount => inferInstanceAs (Decidable (InSight c))
  | .setTokens .. | .onboard | .onboarded .. | .onboardFailed | .resume .. | .connectRelay .. | .timer .. | .refresh
  | .refreshed .. | .onOpen .. | .onError .. | .onClose .. | .onMessage .. | .send
  | .registerPushToken .. => inferInstanceAs (Decidable True)

/-- What holds while the client is shut: it is offline, its flag is up, and
there is nothing left that could bring it back. -/
structure Final (c : Client) : Prop where
  intentional : c.shut = true → c.intentionalClose = true
  relay : c.shut = true → c.relay = none
  timer : c.shut = true → c.reconnectTimer = none
  state : c.shut = true → c.connState = .offline
  sockets : c.shut = true → ∀ k s, c.sockets.lookup k = some s → s.live = false
  breaches : c.breaches = []

variable {c c' : Client} {t k : Nat} {s : Socket}

/-- A step that keeps what matters while shut. -/
theorem Final.quiet (final : Final c) (shut : c'.shut = true → c.shut = true)
    (intentional : c'.intentionalClose = c.intentionalClose) (relay : c'.relay = c.relay ∨ c'.relay = none)
    (timer : c'.reconnectTimer = c.reconnectTimer) (state : c'.connState = c.connState)
    (sockets : c'.sockets = c.sockets) (breaches : c'.breaches = c.breaches) : Final c' := by
  refine ⟨?_, ?_, ?_, ?_, ?_, breaches.trans final.breaches⟩
  · rw [intentional]
    exact fun now => final.intentional (shut now)
  · intro now
    rcases relay with same | dropped
    · rw [same, final.relay (shut now)]
    · exact dropped
  · rw [timer]
    exact fun now => final.timer (shut now)
  · rw [state]
    exact fun now => final.state (shut now)
  · rw [sockets]
    exact fun now => final.sockets (shut now)

/-- A client that is not shut has nothing to keep but its record. -/
theorem final_of_open (unshut : c.shut = false) (breaches : c.breaches = []) : Final c := by
  have never {P : Prop} (shut : c.shut = true) : P := by
    rw [unshut] at shut
    cases shut
  exact ⟨never, never, never, never, never, breaches⟩

/-- Nothing is recorded while the client is not shut. -/
theorem breach_open (unshut : c.shut = false) (k : Nat) : (c.breach k).breaches = c.breaches := by
  simp [Client.breach, unshut]

theorem Final.transmit (final : Final c) : Final c.transmit := by
  obtain ⟨breaches, same, recorded⟩ := transmit_eq c
  rw [same]
  refine final.quiet id rfl (.inl rfl) rfl rfl rfl ?_
  rcases recorded with kept | ⟨shut, k, s, held, _⟩
  · exact kept
  · rw [final.relay shut] at held
    cases held

theorem Final.connectRelay (final : Final c) (expiring : Bool) : Final (c.connectRelay expiring) := by
  unfold Client.connectRelay
  split
  · exact final
  · exact final.quiet id rfl (.inl rfl) rfl rfl rfl rfl

/-- The end of an onboarding begins a call, and leaves a shut client shut. -/
theorem Final.request (final : Final c) (asked expiring : Bool) : Final (c.request asked expiring) := by
  unfold Client.request
  split
  · exact final
  · next named =>
    rw [Client.connectRelay, if_neg named]
    refine final.quiet ?_ rfl (.inl rfl) rfl rfl rfl rfl
    intro shut
    exact (Bool.and_eq_true_iff.mp shut).1

/-- A call goes on while the client is not shut. -/
theorem granted_final {constructs : Bool} (final : Final c) (unshut : c.shut = false) :
    Final (c.granted t constructs) := by
  unfold Client.granted
  split
  · exact final.quiet id rfl (.inl rfl) rfl rfl rfl rfl
  · split
    · apply final_of_open
      · exact unshut
      · simp [breach_open unshut, final.breaches]
    · obtain ⟨timer, attempt, same, -⟩ :=
        connectFailed_eq { c with intentionalClose := false, connState := .connecting }
      rw [same]
      exact final_of_open unshut final.breaches

/-- A socket that opens was alive, which none is while the client is shut. -/
theorem onOpen_final (final : Final c) (found : c.sockets.lookup k = some s)
    (phase : s.phase = .connecting) (held : s.released = false) : Final (c.onOpen k s) := by
  have unshut : c.shut = false := by
    refine Bool.eq_false_iff.mpr ?_
    intro shut
    have dead := final.sockets shut k s found
    rw [Socket.live_of_connecting phase held] at dead
    cases dead
  apply final_of_open
  · exact unshut
  · simp [Client.onOpen, breach_open unshut, final.breaches]

/-- The sockets after one of them has changed for the worse. -/
theorem dead_insert {s' : Socket} (dead : ∀ k s, c.sockets.lookup k = some s → s.live = false)
    (found : c.sockets.lookup k = some s) (worse : s.live = false → s'.live = false) :
    ∀ k' s₁, (c.sockets.insert k s').lookup k' = some s₁ → s₁.live = false := by
  intro k' s₁ found'
  rw [FinMap.lookup_insert_apply] at found'
  split at found'
  · cases found'
    exact worse (dead k s found)
  · exact dead k' s₁ found'

theorem onError_final (final : Final c) (found : c.sockets.lookup k = some s) :
    Final (c.onError k s) := by
  refine ⟨final.intentional, final.relay, final.timer, final.state, ?_, final.breaches⟩
  intro shut
  refine dead_insert (final.sockets shut) found fun dead => ?_
  cases phase : s.phase <;> simp_all [Socket.live]

theorem onClose_final (final : Final c) (found : c.sockets.lookup k = some s) :
    Final (c.onClose k s) := by
  obtain ⟨state, timer, attempt, same, -, keeps, stated⟩ := handleSocketClosed_eq
    { c with sockets := c.sockets.insert k { s with phase := .closed } }
  rw [Client.onClose, same]
  refine ⟨final.intentional, fun _ => rfl, ?_, ?_, ?_, final.breaches⟩
  · intro shut
    exact (keeps (.inl (final.intentional shut))).1.trans (final.timer shut)
  · intro shut
    have kept : state = c.connState := stated.trans (if_pos (final.intentional shut))
    exact kept.trans (final.state shut)
  · intro shut
    exact dead_insert (final.sockets shut) found fun _ => Socket.live_closed s

theorem onMessage_final {delivers : Bool} (final : Final c) (found : c.sockets.lookup k = some s) :
    Final (c.onMessage k s delivers) := by
  unfold Client.onMessage
  split
  · next used =>
    refine final.quiet id rfl (.inl rfl) rfl rfl rfl (if_neg ?_)
    intro shut
    have dead := final.sockets shut k s found
    rw [Socket.live_of_usable (Bool.and_eq_true_iff.mp used).2] at dead
    cases dead
  · exact final

theorem connected_final (final : Final c) (unshut : c.shut = false) : Final (c.connected t) := by
  have online : Final { c.forget t with connState := .connected } :=
    final_of_open unshut final.breaches
  unfold Client.connected
  simp only
  split
  · exact online.transmit
  · exact online

/-- A failed connection leaves a shut client alone. -/
theorem failed_final (final : Final c) : Final (c.forget t).connectFailed := by
  obtain ⟨timer, attempt, same, -, keeps⟩ := connectFailed_eq (c.forget t)
  rw [same]
  refine ⟨final.intentional, fun _ => rfl, ?_, fun _ => rfl, final.sockets, final.breaches⟩
  intro shut
  exact (keeps (.inl (final.intentional shut))).1.trans (final.timer shut)

/-- `close()` lets go of the only socket that is alive. -/
theorem close_final (coherent : Coherent c) (inSight : InSight c) (breaches : c.breaches = []) :
    Final c.close := by
  refine ⟨fun _ => rfl, fun _ => rfl, fun _ => rfl, fun _ => rfl, ?_, breaches⟩
  intro _ k s found
  refine coherent.close_dead ?_ found
  intro k s found live
  exact inSight ⟨k, s⟩ (AList.mem_lookup_iff.mp found) live

theorem step_final {a : Action} (coherent : Coherent c) (final : Final c) (settled : Settled c a)
    (moved : c.step a = some c') : Final c' := by
  cases step_moves moved with
  | tokens discovery _ => exact final.quiet id rfl (.inl rfl) rfl rfl rfl rfl
  | onboard => exact final_of_open rfl final.breaches
  | onboardFailed _ => exact final.quiet id rfl (.inl rfl) rfl rfl rfl rfl
  | request discovery userId onboarding asked expiring _ =>
    have identified : Final
        { c with discovery := discovery, userId := userId, onboarding := onboarding } :=
      final.quiet id rfl (.inl rfl) rfl rfl rfl rfl
    exact identified.request asked expiring
  | timer pending =>
    have unshut : c.shut = false := by
      cases shut : c.shut with
      | false => rfl
      | true =>
        rw [final.timer shut] at pending
        cases pending
    have fired : Final { c with reconnectTimer := none } := final_of_open unshut final.breaches
    exact fired.connectRelay _
  | granted found fulfilled token =>
    exact granted_final final (settled (by simp [admitted, found, fulfilled, token]))
  | refused _ _ _ => exact final.quiet id rfl (.inl rfl) rfl rfl rfl rfl
  | onOpen found phase held => exact onOpen_final final found phase held
  | onError found _ => exact onError_final final found
  | onClose found _ => exact onClose_final final found
  | onMessage found _ => exact onMessage_final final found
  | connected found => exact connected_final final (settled found)
  | failed _ => exact failed_final final
  | send => exact final.transmit
  | @registerPushToken token =>
    have registered : Final { c with pushToken := token } :=
      final.quiet id rfl (.inl rfl) rfl rfl rfl rfl
    exact registered.transmit
  | close => exact close_final coherent settled final.breaches
  | deleteAccount =>
    exact close_final (coherent.identified _ _ _) settled final.breaches

theorem reached_final (reached : client.Reached Settled c) : Final c := by
  refine reached.invariant_under Final (fun _ => reached_coherent) ?_ ?_
  · rintro c rfl
    exact final_of_open rfl rfl
  · intro c a c' coherent final settled moved
    exact step_final coherent final settled moved

/-- **`close()` is final.** In every run in which no `connectRelay` is granted
its access token or reports its socket open while the client is shut, be it from
before `close()` or from the end of an onboarding that began before it, and
`close()` is not called with a socket out of sight, no socket is ever opened or
used after `close()` has returned, and the client stays offline, until the
application itself calls for a connection again. -/
theorem close_is_final (reached : client.Reached Settled c) :
    c.breaches = [] ∧ (c.shut = true → c.connState = .offline) := by
  have final := reached_final reached
  exact ⟨final.breaches, final.state⟩

/-- The client is closed while it waits for the relay's socket and for the
answer to a linking code. -/
def closedEarly : List Action :=
  [.setTokens "access" "refresh", .resume "alice" false, .ensured 0 true, .onboard, .close,
    .onError 0, .settled 0, .onClose 0, .onboarded "laptop" "linked" "refresh" false]

theorem early_close_is_final : ∃ c, client.Reached Settled c ∧ c.shut = true ∧
    c.breaches = [] ∧ (c.shut = true → c.connState = .offline) := by
  have observed : (client.checkedRun Settled {} closedEarly).map (·.shut) = some true := by
    decide +kernel
  obtain ⟨c, reached, shut⟩ := Machine.reached_of_observed observed (.start rfl)
  exact ⟨c, reached, shut, close_is_final reached⟩

/-- The client is closed while it waits for a fresh access token. -/
def closedTooEarly : List Action :=
  [.setTokens "stale" "refresh", .resume "alice" true, .close, .refreshed (some ("access", "")),
    .ensured 0 true]

/-- The call goes on after `close()` and opens a socket. -/
theorem refreshed_token_reopens_client : ¬ ∀ c, client.Reachable c →
    c.breaches = [] ∧ (c.shut = true → c.connState = .offline) := by
  have observed : (client.run {} closedTooEarly).map (fun c => (c.breaches, c.shut, c.connState)) =
      some ([0], true, .connecting) := by decide +kernel
  obtain ⟨c, reachable, seen⟩ := Machine.reachable_of_observed observed rfl
  simp only [Prod.mk.injEq] at seen
  intro final
  have untouched := (final c reachable).1
  rw [seen.1] at untouched
  cases untouched

end Hwfa.ClientClosing
