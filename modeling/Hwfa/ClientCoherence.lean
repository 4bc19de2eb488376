import Hwfa.ClientLifecycle

/-!
Sockets and the calls that created them agree, in every run of the client: a
socket that is connecting has a call waiting for it, a call whose connection has
failed has a dead socket, and `relay` holds the last socket created, which is
alive or about to be given up.
-/

namespace Hwfa.ClientCoherence

open Hwfa.Machines Hwfa.Maps Hwfa.ClientLifecycle

variable {c c' : Client} {t k : Nat} {s : Socket}

structure Coherent (c : Client) : Prop where
  fresh : ∀ t, c.nextCall ≤ t → c.calls.lookup t = none ∧ c.sockets.lookup t = none
  ensuring : ∀ t awaited, c.calls.lookup t = some (.ensuring awaited) → c.sockets.lookup t = none
  connecting : ∀ k s, c.sockets.lookup k = some s → s.phase = .connecting →
    c.calls.lookup k = some (.opening none)
  pending : ∀ k s, c.calls.lookup k = some (.opening none) → c.sockets.lookup k = some s →
    s.phase ≠ .opened
  rejected : ∀ k, c.calls.lookup k = some (.opening (some false)) →
    ∃ s, c.sockets.lookup k = some s ∧ s.live = false
  relay : ∀ k, c.relay = some k → c.intentionalClose = false ∧ c.newest = some k ∧
    ∃ s, c.sockets.lookup k = some s ∧ s.released = false ∧ s.phase ≠ .closed ∧
      (s.phase = .failed → c.calls.lookup k = some (.opening (some false)))

/-- A step that touches neither calls nor sockets. -/
theorem Coherent.quiet (coherent : Coherent c) (nextCall : c'.nextCall = c.nextCall)
    (calls : c'.calls = c.calls) (sockets : c'.sockets = c.sockets)
    (relay : c'.relay = none ∨ c'.relay = c.relay ∧ c'.intentionalClose = c.intentionalClose ∧
      c'.newest = c.newest) : Coherent c' := by
  refine ⟨?_, ?_, ?_, ?_, ?_, ?_⟩
  · rw [nextCall, calls, sockets]
    exact coherent.fresh
  · rw [calls, sockets]
    exact coherent.ensuring
  · rw [calls, sockets]
    exact coherent.connecting
  · rw [calls, sockets]
    exact coherent.pending
  · rw [calls, sockets]
    exact coherent.rejected
  · intro k held
    rcases relay with dropped | ⟨same, intentional, newest⟩
    · rw [dropped] at held
      cases held
    · rw [calls, sockets, intentional, newest]
      exact coherent.relay k (same ▸ held)

theorem Coherent.identified (coherent : Coherent c) (discovery : Discovery) (userId : String)
    (onboarding : Nat) :
    Coherent { c with discovery := discovery, userId := userId, onboarding := onboarding } :=
  coherent.quiet rfl rfl rfl (.inr ⟨rfl, rfl, rfl⟩)

/-- The end of a call leaves the calls that stand elsewhere. -/
theorem lookup_forget {call other : Call} (found : c.calls.lookup t = some call)
    (waiting : c.calls.lookup k = some other) (differs : other ≠ call) :
    (c.forget t).calls.lookup k = some other := by
  rw [Client.forget, FinMap.lookup_erase_apply, if_neg, waiting]
  rintro rfl
  rw [found] at waiting
  exact differs (Option.some.inj waiting).symm

/-- A call that has nothing to wait for is over. -/
theorem Coherent.forget {call : Call} (coherent : Coherent c) (found : c.calls.lookup t = some call)
    (answered : call ≠ .opening none)
    (relay : c.relay = some t → call ≠ .opening (some false)) : Coherent (c.forget t) := by
  have lookup (t' : Nat) : (c.forget t).calls.lookup t' = if t' = t then none else c.calls.lookup t' := by
    rw [Client.forget, FinMap.lookup_erase_apply]
  refine ⟨?_, ?_, ?_, ?_, ?_, ?_⟩
  · intro t' beyond
    obtain ⟨none, sockets⟩ := coherent.fresh t' beyond
    refine ⟨?_, sockets⟩
    rw [lookup, none, ite_self]
  · intro t' awaited ensuring
    rw [lookup] at ensuring
    split at ensuring
    · cases ensuring
    · exact coherent.ensuring t' awaited ensuring
  · intro k s socket phase
    exact lookup_forget found (coherent.connecting k s socket phase) answered.symm
  · intro k s waiting socket
    rw [lookup] at waiting
    split at waiting
    · cases waiting
    · exact coherent.pending k s waiting socket
  · intro k rejected
    rw [lookup] at rejected
    split at rejected
    · cases rejected
    · exact coherent.rejected k rejected
  · intro k held
    obtain ⟨intentional, newest, s, socket, released, phase, failed⟩ := coherent.relay k held
    refine ⟨intentional, newest, s, socket, released, phase, ?_⟩
    intro failing
    by_cases own : k = t
    · subst own
      rw [found] at failed
      exact absurd (Option.some.inj (failed failing)) (relay held)
    · rw [lookup, if_neg own, failed failing]

/-- A call begins. -/
theorem Coherent.connectRelay (coherent : Coherent c) (expiring : Bool) :
    Coherent (c.connectRelay expiring) := by
  unfold Client.connectRelay
  split
  · exact coherent
  · obtain ⟨-, unused⟩ := coherent.fresh c.nextCall (Nat.le_refl _)
    refine ⟨?_, ?_, ?_, ?_, ?_, ?_⟩
    · intro t beyond
      have later : c.nextCall + 1 ≤ t := beyond
      rw [FinMap.lookup_insert_apply, if_neg (by omega)]
      exact coherent.fresh t (by omega)
    · intro t awaited ensuring
      rw [FinMap.lookup_insert_apply] at ensuring
      split at ensuring
      · next own => rw [own, unused]
      · exact coherent.ensuring t awaited ensuring
    · intro k s socket phase
      rw [FinMap.lookup_insert_apply, if_neg]
      · exact coherent.connecting k s socket phase
      · rintro rfl
        rw [unused] at socket
        cases socket
    · intro k s waiting socket
      rw [FinMap.lookup_insert_apply] at waiting
      split at waiting
      · cases waiting
      · exact coherent.pending k s waiting socket
    · intro k rejected
      rw [FinMap.lookup_insert_apply] at rejected
      split at rejected
      · cases rejected
      · exact coherent.rejected k rejected
    · intro k held
      obtain ⟨intentional, newest, s, socket, released, phase, failed⟩ := coherent.relay k held
      refine ⟨intentional, newest, s, socket, released, phase, ?_⟩
      intro failing
      rw [FinMap.lookup_insert_apply, if_neg, failed failing]
      rintro rfl
      rw [unused] at socket
      cases socket

theorem Coherent.request (coherent : Coherent c) (asked expiring : Bool) :
    Coherent (c.request asked expiring) := by
  unfold Client.request
  split
  · exact coherent
  · exact (coherent.connectRelay expiring).quiet rfl rfl rfl (.inr ⟨rfl, rfl, rfl⟩)

theorem Coherent.connectFailed (coherent : Coherent c) : Coherent c.connectFailed := by
  obtain ⟨timer, attempt, same, -⟩ := connectFailed_eq c
  rw [same]
  exact coherent.quiet rfl rfl rfl (.inl rfl)

/-- A call creates its socket. -/
theorem Coherent.granted {awaited : Option Nat} (coherent : Coherent c)
    (found : c.calls.lookup t = some (.ensuring awaited)) (constructs : Bool) :
    Coherent (c.granted t constructs) := by
  have unused := coherent.ensuring t awaited found
  unfold Client.granted
  split
  · exact coherent.forget found (by simp) (by simp)
  · next idle =>
    split
    · refine ⟨?_, ?_, ?_, ?_, ?_, ?_⟩
      · intro t' beyond
        obtain ⟨none, none'⟩ := coherent.fresh t' beyond
        have other : t' ≠ t := by
          rintro rfl
          rw [found] at none
          cases none
        rw [FinMap.lookup_insert_apply, FinMap.lookup_insert_apply, if_neg other, if_neg other]
        exact ⟨none, none'⟩
      · intro t' awaited' ensuring
        rw [FinMap.lookup_insert_apply] at ensuring ⊢
        split at ensuring
        · cases ensuring
        · next other =>
          rw [if_neg other]
          exact coherent.ensuring t' awaited' ensuring
      · intro k s socket phase
        rw [FinMap.lookup_insert_apply] at socket ⊢
        split
        · rfl
        · next other =>
          rw [if_neg other] at socket
          exact coherent.connecting k s socket phase
      · intro k s waiting socket
        rw [FinMap.lookup_insert_apply] at waiting socket
        split at socket
        · cases socket
          simp
        · next other =>
          rw [if_neg other] at waiting
          exact coherent.pending k s waiting socket
      · intro k rejected
        rw [FinMap.lookup_insert_apply] at rejected ⊢
        split at rejected
        · cases rejected
        · next other =>
          rw [if_neg other]
          exact coherent.rejected k rejected
      · intro k held
        cases held
        refine ⟨rfl, rfl, {}, ?_, rfl, by simp, by simp⟩
        rw [FinMap.lookup_insert_apply, if_pos rfl]
    · have reset : Coherent { c with intentionalClose := false, connState := .connecting } := by
        refine coherent.quiet rfl rfl rfl (.inl ?_)
        simpa using idle
      obtain ⟨timer, attempt, same, -⟩ :=
        connectFailed_eq { c with intentionalClose := false, connState := .connecting }
      exact reset.connectFailed.forget (by rw [same]; exact found) (by simp) (by simp)

/-- The promise of a socket settles with its first open or error event. -/
theorem settle_lookup (outcome : Bool) (k' : Nat) :
    (c.settle k outcome).lookup k' =
      if k' = k ∧ c.calls.lookup k = some (.opening none) then some (.opening (some outcome))
      else c.calls.lookup k' := by
  unfold Client.settle
  split
  · next pending =>
    rw [FinMap.lookup_insert_apply]
    by_cases own : k' = k
    · rw [if_pos own, if_pos ⟨own, pending⟩]
    · rw [if_neg own, if_neg fun both => own both.1]
  · next settled => rw [if_neg fun both => settled both.2]

/-- The open or error event of a socket, with which its promise settles. -/
theorem Coherent.event {outcome : Bool} (coherent : Coherent c)
    (found : c.sockets.lookup k = some s) (s' : Socket) (started : s.phase = .connecting ∨ s.phase = .opened)
    (released : s'.released = s.released) (left : s'.phase ≠ .connecting) (unclosed : s'.phase ≠ .closed)
    (failing : s'.phase = .failed → s.phase = .connecting ∧ outcome = false)
    (rejects : outcome = false → s.phase = .connecting → s'.live = false)
    (dead : s.live = false → s'.live = false)
    (nextCall : c'.nextCall = c.nextCall) (sockets : c'.sockets = c.sockets.insert k s')
    (calls : c'.calls = c.settle k outcome) (relay : c'.relay = c.relay)
    (intentional : c'.intentionalClose = c.intentionalClose) (newest : c'.newest = c.newest) :
    Coherent c' := by
  have socket (k' : Nat) : c'.sockets.lookup k' = if k' = k then some s' else c.sockets.lookup k' := by
    rw [sockets, FinMap.lookup_insert_apply]
  have call (k' : Nat) := calls ▸ settle_lookup (c := c) (k := k) outcome k'
  refine ⟨?_, ?_, ?_, ?_, ?_, ?_⟩
  · intro t beyond
    rw [nextCall] at beyond
    obtain ⟨none, none'⟩ := coherent.fresh t beyond
    have other : t ≠ k := by
      rintro rfl
      rw [found] at none'
      cases none'
    rw [call, socket, if_neg other, if_neg fun both => other both.1]
    exact ⟨none, none'⟩
  · intro t awaited ensuring
    rw [call] at ensuring
    split at ensuring
    · cases ensuring
    · have none := coherent.ensuring t awaited ensuring
      rw [socket, if_neg, none]
      rintro rfl
      rw [found] at none
      cases none
  · intro k' s₁ found' connecting
    rw [socket] at found'
    split at found'
    · cases found'
      exact absurd connecting left
    · next other =>
      rw [call, if_neg fun both => other both.1]
      exact coherent.connecting k' s₁ found' connecting
  · intro k' s₁ waiting found'
    rw [call] at waiting
    split at waiting
    · cases waiting
    · next settled =>
      rw [socket] at found'
      split at found'
      · next own =>
        subst own
        exact absurd ⟨rfl, waiting⟩ settled
      · exact coherent.pending k' s₁ waiting found'
  · intro k' rejected
    rw [call] at rejected
    rw [socket]
    split at rejected
    · next own =>
      rw [if_pos own.1]
      have failed : outcome = false := by simpa using rejected
      have connecting := started.resolve_right (coherent.pending k s own.2 found)
      exact ⟨s', rfl, rejects failed connecting⟩
    · obtain ⟨s₁, found', was⟩ := coherent.rejected k' rejected
      by_cases own : k' = k
      · subst own
        rw [found] at found'
        cases found'
        exact ⟨s', if_pos rfl, dead was⟩
      · exact ⟨s₁, by rw [if_neg own, found'], was⟩
  · intro k' held
    rw [relay] at held
    obtain ⟨unclosed', newest', s₁, found', released', open', failed⟩ := coherent.relay k' held
    refine ⟨intentional.trans unclosed', newest.trans newest', ?_⟩
    rw [socket]
    by_cases own : k' = k
    · subst own
      rw [found] at found'
      cases found'
      refine ⟨s', if_pos rfl, released.trans released', unclosed, ?_⟩
      intro failing'
      obtain ⟨connecting, rfl⟩ := failing failing'
      rw [call, if_pos ⟨rfl, coherent.connecting k' s found connecting⟩]
    · refine ⟨s₁, by rw [if_neg own, found'], released', open', ?_⟩
      intro failing'
      rw [call, if_neg fun both => own both.1]
      exact failed failing'

theorem Coherent.onOpen (coherent : Coherent c) (found : c.sockets.lookup k = some s)
    (phase : s.phase = .connecting) (held : s.released = false) : Coherent (c.onOpen k s) := by
  refine coherent.event found { s with phase := .opened } (.inl phase) rfl ?_ ?_ ?_ ?_ ?_
    rfl rfl rfl rfl rfl rfl
  · simp
  · simp
  · simp
  · simp
  · simp [Socket.live, phase, held]

theorem Coherent.onError (coherent : Coherent c) (found : c.sockets.lookup k = some s)
    (phase : s.phase = .connecting ∨ s.phase = .opened) : Coherent (c.onError k s) := by
  refine coherent.event found
    { s with phase := if s.phase = .connecting then .failed else s.phase } phase rfl ?_ ?_ ?_ ?_ ?_
    rfl rfl rfl rfl rfl rfl
  · rcases phase with phase | phase
    · simp [phase]
    · simp [phase]
  · rcases phase with phase | phase
    · simp [phase]
    · simp [phase]
  · rcases phase with phase | phase
    · simp [phase]
    · simp [phase]
  · intro _ connecting
    simp [Socket.live, connecting]
  · rcases phase with phase | phase
    · simp [Socket.live, phase]
    · simp [Socket.live, phase]

/-- A socket is given up: by its close event, or by `close()`. -/
theorem Coherent.drop (coherent : Coherent c) (found : c.sockets.lookup k = some s) (s' : Socket)
    (dead : s'.live = false) (same : s'.phase = .closed ∨ s'.phase = s.phase)
    (nextCall : c'.nextCall = c.nextCall) (sockets : c'.sockets = c.sockets.insert k s')
    (calls : c'.calls = c.calls) (relay : c'.relay = none) : Coherent c' := by
  have socket (k' : Nat) : c'.sockets.lookup k' = if k' = k then some s' else c.sockets.lookup k' := by
    rw [sockets, FinMap.lookup_insert_apply]
  refine ⟨?_, ?_, ?_, ?_, ?_, ?_⟩
  · intro t beyond
    rw [nextCall] at beyond
    obtain ⟨none, none'⟩ := coherent.fresh t beyond
    have other : t ≠ k := by
      rintro rfl
      rw [found] at none'
      cases none'
    rw [calls, socket, if_neg other]
    exact ⟨none, none'⟩
  · intro t awaited ensuring
    rw [calls] at ensuring
    have none := coherent.ensuring t awaited ensuring
    rw [socket, if_neg, none]
    rintro rfl
    rw [found] at none
    cases none
  · intro k' s₁ found' connecting
    rw [socket] at found'
    rw [calls]
    split at found'
    · next own =>
      cases found'
      subst own
      rcases same with closed | before
      · rw [closed] at connecting
        cases connecting
      · exact coherent.connecting k' s found (before ▸ connecting)
    · exact coherent.connecting k' s₁ found' connecting
  · intro k' s₁ waiting found'
    rw [calls] at waiting
    rw [socket] at found'
    split at found'
    · next own =>
      cases found'
      subst own
      rcases same with closed | before
      · rw [closed]
        simp
      · rw [before]
        exact coherent.pending k' s waiting found
    · exact coherent.pending k' s₁ waiting found'
  · intro k' rejected
    rw [calls] at rejected
    obtain ⟨s₁, found', was⟩ := coherent.rejected k' rejected
    rw [socket]
    by_cases own : k' = k
    · exact ⟨s', if_pos own, dead⟩
    · exact ⟨s₁, by rw [if_neg own, found'], was⟩
  · intro k' held
    rw [relay] at held
    cases held

theorem Coherent.onClose (coherent : Coherent c) (found : c.sockets.lookup k = some s) :
    Coherent (c.onClose k s) := by
  obtain ⟨state, timer, attempt, same, -⟩ := handleSocketClosed_eq
    { c with sockets := c.sockets.insert k { s with phase := .closed } }
  refine coherent.drop found { s with phase := .closed } ?_ (.inl rfl) ?_ ?_ ?_ ?_
  · exact Socket.live_closed s
  · rw [Client.onClose, same]
  · rw [Client.onClose, same]
  · rw [Client.onClose, same]
  · rw [Client.onClose, same]

theorem Coherent.close (coherent : Coherent c) : Coherent c.close := by
  cases relay : c.relay with
  | none => exact coherent.quiet rfl rfl (by simp [Client.close, Client.release, relay]) (.inl rfl)
  | some k =>
    obtain ⟨-, -, s, found, -⟩ := coherent.relay k relay
    refine coherent.drop found { s with released := true } ?_ (.inr rfl) rfl ?_ rfl rfl
    · exact Socket.live_released s
    · simp [Client.close, Client.release, relay, found]

/-- `close()` leaves nothing alive, if the only socket that is alive is the one
in `relay`. -/
theorem Coherent.close_dead (coherent : Coherent c)
    (sole : ∀ k s, c.sockets.lookup k = some s → s.live = true → c.relay = some k)
    (found : c.close.sockets.lookup k = some s) : s.live = false := by
  refine Bool.eq_false_iff.mpr ?_
  intro live
  cases relay : c.relay with
  | none =>
    have found' : c.sockets.lookup k = some s := by
      simpa [Client.close, Client.release, relay] using found
    rw [sole k s found' live] at relay
    cases relay
  | some held =>
    obtain ⟨-, -, s₀, socket, -⟩ := coherent.relay held relay
    have found' : (c.sockets.insert held { s₀ with released := true }).lookup k = some s := by
      simpa [Client.close, Client.release, relay, socket] using found
    rw [FinMap.lookup_insert_apply] at found'
    split at found'
    · cases found'
      simp at live
    · next other =>
      rw [sole k s found' live] at relay
      exact other (Option.some.inj relay)

theorem Coherent.transmit (coherent : Coherent c) : Coherent c.transmit := by
  obtain ⟨breaches, same, -⟩ := transmit_eq c
  rw [same]
  exact coherent.quiet rfl rfl rfl (.inr ⟨rfl, rfl, rfl⟩)

theorem Coherent.connected (coherent : Coherent c)
    (found : c.calls.lookup t = some (.opening (some true))) : Coherent (c.connected t) := by
  have online : Coherent { c.forget t with connState := .connected } :=
    (coherent.forget found (by simp) (by simp)).quiet rfl rfl rfl (.inr ⟨rfl, rfl, rfl⟩)
  unfold Client.connected
  simp only
  split
  · exact online.transmit
  · exact online

theorem step_coherent {a : Action} (coherent : Coherent c) (moved : c.step a = some c') :
    Coherent c' := by
  cases step_moves moved with
  | tokens discovery _ => exact coherent.quiet rfl rfl rfl (.inr ⟨rfl, rfl, rfl⟩)
  | onboard => exact coherent.quiet rfl rfl rfl (.inr ⟨rfl, rfl, rfl⟩)
  | onboardFailed _ => exact coherent.quiet rfl rfl rfl (.inr ⟨rfl, rfl, rfl⟩)
  | request discovery userId onboarding asked expiring _ =>
    exact (coherent.identified discovery userId onboarding).request asked expiring
  | timer _ =>
    have fired : Coherent { c with reconnectTimer := none } :=
      coherent.quiet rfl rfl rfl (.inr ⟨rfl, rfl, rfl⟩)
    exact fired.connectRelay _
  | granted found _ _ => exact coherent.granted found _
  | refused found _ _ => exact coherent.forget found (by simp) (by simp)
  | onOpen found phase held => exact coherent.onOpen found phase held
  | onError found phase => exact coherent.onError found phase
  | onClose found _ => exact coherent.onClose found
  | onMessage _ _ =>
    unfold Client.onMessage
    split
    · exact coherent.quiet rfl rfl rfl (.inr ⟨rfl, rfl, rfl⟩)
    · exact coherent
  | connected found => exact coherent.connected found
  | failed found =>
    -- the call is over only once the connection has been dropped
    obtain ⟨timer, attempt, same, -⟩ := connectFailed_eq (c.forget _)
    have dropped : Coherent { c with relay := none } := coherent.quiet rfl rfl rfl (.inl rfl)
    rw [same]
    exact (dropped.forget found (by simp) (by simp)).quiet rfl rfl rfl (.inl rfl)
  | send => exact coherent.transmit
  | @registerPushToken token =>
    have registered : Coherent { c with pushToken := token } :=
      coherent.quiet rfl rfl rfl (.inr ⟨rfl, rfl, rfl⟩)
    exact registered.transmit
  | close => exact coherent.close
  | deleteAccount =>
    exact (coherent.identified { c.discovery with token := "" } "" c.onboarding).close

theorem reached_coherent {ok : Client → Action → Prop} (reached : client.Reached ok c) :
    Coherent c := by
  refine reached.invariant Coherent ?_ fun c a c' coherent _ moved => step_coherent coherent moved
  rintro c rfl
  refine ⟨fun t _ => ⟨rfl, rfl⟩, ?_, ?_, ?_, ?_, ?_⟩
  · intro t awaited found
    cases found
  · intro k s found
    cases found
  · intro k s found
    cases found
  · intro k found
    cases found
  · intro k held
    cases held

end Hwfa.ClientCoherence
