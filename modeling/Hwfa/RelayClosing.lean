import Hwfa.RelayWiring

/-!
Sends on closed channels.

`route` and `forwardStatus` take their target from the connection table under
the hub's lock and send to it after releasing the lock.  Nothing keeps the
target's own handler from unregistering and closing its channel in between, and
then the send panics.  The invariant below shows that this is the only way: as
long as no channel is closed while some handler has captured it, every send
finds its channel open.
-/

namespace Hwfa.RelayClosing

open Hwfa.Machines Hwfa.RelayEnvelope Hwfa.RelayHub Hwfa.RelayProcess Hwfa.RelayWiring

/-- The connection on whose channel the handler of `c` executes `send` next. -/
def sendsOn (c : ConnId) : Pc → Option ConnId
  | .flushing (_ :: _) | .acking _ _ => some c
  | .routing target _ _ | .forwarding target _ => some target
  | _ => none

/-- Every send that can execute now finds its channel open. -/
def SendsOpen (s : Relay) : Prop :=
  ∀ c cl target clt, s.clients c = some cl → sendsOn c cl.pc = some target →
    s.clients target = some clt → clt.outClosed = false

/-- The step closes no channel that a `route` or `forwardStatus` has captured
and not yet sent to. -/
def ClosesUncaptured (s : Relay) : Action → Prop
  | .at c .closeOut => ∀ d cld, s.clients d = some cld → captured cld.pc ≠ some c
  | _ => True

/-- Every captured target is open. -/
def CapturesOpen (s : Relay) : Prop :=
  ∀ c cl target clt, s.clients c = some cl → captured cl.pc = some target →
    s.clients target = some clt → clt.outClosed = false

variable {s s' : Relay} {c : ConnId} {cl : Client}

/-- What a handler sends to is its own connection, still attached, or a capture. -/
theorem sendsOn_cases {pc : Pc} {target : ConnId} (sends : sendsOn c pc = some target) :
    (target = c ∧ ¬ Closed pc) ∨ captured pc = some target := by
  unfold sendsOn at sends
  split at sends
  · exact .inl ⟨(Option.some.inj sends).symm, by simp [Closed]⟩
  · exact .inl ⟨(Option.some.inj sends).symm, by simp [Closed]⟩
  · exact .inr sends
  · exact .inr sends
  · cases sends

theorem sendsOn_of_captured {pc : Pc} {target : ConnId} (capture : captured pc = some target) :
    sendsOn c pc = some target := by
  unfold captured at capture
  split at capture
  · exact capture
  · exact capture
  · cases capture

/-- Sends on a handler's own channel are safe, so open captures are all it takes. -/
theorem sendsOpen_iff (wired : Wired s) : SendsOpen s ↔ CapturesOpen s := by
  constructor
  · exact fun opened c cl target clt found capture =>
      opened c cl target clt found (sendsOn_of_captured capture)
  · intro opened c cl target clt found sends target_found
    rcases sendsOn_cases sends with ⟨rfl, running⟩ | capture
    · rw [found] at target_found
      cases target_found
      exact wired.opened found running
    · exact opened c cl target clt found capture target_found

/-- Replacing the hub, the file or a history. -/
theorem CapturesOpen.replace (opened : CapturesOpen s) (clients : s'.clients = s.clients) :
    CapturesOpen s' := by
  unfold CapturesOpen
  rw [clients]
  exact opened

/-- A step of a connection that closes nothing and captures at most what is open. -/
theorem CapturesOpen.modify (opened : CapturesOpen s) (f : Client → Client)
    (found : s.clients c = some cl) (closes : (f cl).outClosed = cl.outClosed)
    (captures : ∀ target clt, captured (f cl).pc = some target → s.clients target = some clt →
      clt.outClosed = false) : CapturesOpen (s.modify c f) := by
  have lookup (target : ConnId) (clt' : Client)
      (after : (s.modify c f).clients target = some clt') :
      ∃ clt, s.clients target = some clt ∧ clt'.outClosed = clt.outClosed := by
    rcases modify_found_of found after with ⟨rfl, rfl⟩ | ⟨_, before⟩
    · exact ⟨cl, found, closes⟩
    · exact ⟨clt', before, rfl⟩
  intro d cld target clt' after capture target_after
  obtain ⟨clt, target_found, same⟩ := lookup target clt' target_after
  rw [same]
  rcases modify_found_of found after with ⟨rfl, rfl⟩ | ⟨_, before⟩
  · exact captures target clt capture target_found
  · exact opened d cld target clt before capture target_found

/-- Moving a handler on to a point where it has captured nothing. -/
theorem CapturesOpen.release (opened : CapturesOpen s) (f : Client → Client)
    (found : s.clients c = some cl) (closes : (f cl).outClosed = cl.outClosed)
    (nothing : captured (f cl).pc = none) : CapturesOpen (s.modify c f) := by
  refine opened.modify f found closes ?_
  intro target clt capture
  rw [nothing] at capture
  cases capture

/-- Changing only what the writer, the socket and the channel's content are. -/
theorem CapturesOpen.modify_writer (opened : CapturesOpen s) (f : Client → Client)
    (found : s.clients c = some cl) (closes : (f cl).outClosed = cl.outClosed)
    (pc : (f cl).pc = cl.pc) : CapturesOpen (s.modify c f) := by
  refine opened.modify f found closes ?_
  rw [pc]
  exact fun target clt => opened c cl target clt found

/-- A handler captures a connection that the table still holds. -/
theorem CapturesOpen.capture (opened : CapturesOpen s) (wired : Wired s)
    (found : s.clients c = some cl) {key : String} {target : ConnId} (pc : Pc)
    (connected : s.hub.conns key = some target) (captures : captured pc = some target) :
    CapturesOpen (s.goto c pc) := by
  refine opened.modify _ found rfl ?_
  intro target' clt capture target_found
  have same : target = target' := Option.some.inj (captures.symm.trans capture)
  subst same
  obtain ⟨clt', before, _, attached⟩ := wired.live key target connected
  rw [target_found] at before
  cases before
  exact wired.opened target_found (attached_not_closed attached)

/-- A handler moves on after its send has returned. -/
theorem CapturesOpen.sent {target : ConnId} {msg : RelayMessage} (opened : CapturesOpen s)
    (found : s.clients c = some cl) (pc : Pc) (sent : s.send target msg = some s')
    (nothing : captured pc = none) : CapturesOpen (s'.goto c pc) := by
  obtain ⟨cl', found', _, _, _⟩ := send_found sent found
  have delivered : CapturesOpen s' := by
    obtain ⟨clt, target_found, _, ⟨_, rfl⟩ | ⟨_, rfl⟩⟩ := send_cases sent
    · exact opened.modify_writer _ target_found rfl rfl
    · exact opened
  exact delivered.release _ found' rfl nothing

/-- No step that meets the condition leaves a captured channel closed. -/
theorem step_capturesOpen {a : Action} (wired : Wired s) (opened : CapturesOpen s)
    (careful : ClosesUncaptured s a) (moved : s.step a = some s') : CapturesOpen s' := by
  cases step_moves moved with
  | connect userID deviceID =>
    intro d cld target clt after capture target_after
    rcases connect_found target_after with rfl | target_found
    · rfl
    · rcases connect_found after with rfl | before
      · cases capture
      · exact opened d cld target clt before capture target_found
  | register found pc => exact (opened.release _ found rfl rfl).replace rfl
  | flush found pc sent => exact opened.sent found _ sent rfl
  | flushPanic found pc _ => exact opened.release _ found rfl rfl
  | startWriter found pc => exact opened.release _ found rfl rfl
  | take found _ _ => exact opened.modify_writer _ found rfl rfl
  | write found _ => exact opened.modify_writer _ found rfl rfl
  | writeError found _ => exact opened.modify_writer _ found rfl rfl
  | drained found _ _ _ => exact opened.modify_writer _ found rfl rfl
  | ignore _ _ => exact opened
  | registerPush _ _ => exact opened.replace rfl
  | routeLive found pc claimed connected =>
    exact (opened.capture wired found (.routing _ _ _) connected rfl).replace rfl
  | routeOffline found pc claimed offline =>
    exact (opened.release _ found rfl rfl).replace rfl
  | receipt found pc status connected =>
    exact opened.capture wired found (.forwarding _ _) connected rfl
  | sendLive found pc sent => exact (opened.sent found (.acking _ _) sent rfl).replace rfl
  | sendLivePanic found pc _ => exact opened.release _ found rfl rfl
  | ack found pc kind sent => exact opened.sent found _ sent rfl
  | ackPanic found pc _ => exact opened.release _ found rfl rfl
  | forward found pc sent => exact opened.sent found _ sent rfl
  | forwardPanic found pc _ => exact opened.release _ found rfl rfl
  | readError found pc => exact opened.release _ found rfl rfl
  | unregister found pc => exact (opened.release _ found rfl rfl).replace rfl
  | closeOut found pc still =>
    next c cl =>
    intro d cld target clt after capture target_after
    have other : target ≠ c := by
      rintro rfl
      rcases modify_found after with ⟨_, cl₀, _, rfl⟩ | ⟨_, before⟩
      · cases capture
      · exact careful d cld before capture
    rcases modify_found target_after with ⟨own, _⟩ | ⟨_, target_found⟩
    · exact absurd own other
    · rcases modify_found after with ⟨_, cl₀, _, rfl⟩ | ⟨_, before⟩
      · cases capture
      · exact opened d cld target clt before capture target_found
  | closeTwice found pc _ => exact opened.release _ found rfl rfl
  | closeConn found pc => exact opened.release _ found rfl rfl
  | expire found => exact opened.modify_writer _ found rfl rfl

/-- A close that does not meet the condition leaves a send on a closed channel. -/
theorem careless_close_breaks {a : Action} (wired : Wired s)
    (careless : ¬ ClosesUncaptured s a) (moved : s.step a = some s') : ¬ CapturesOpen s' := by
  cases step_moves moved with
  | closeOut found pc still =>
    next c cl =>
    simp only [ClosesUncaptured, not_forall, not_not] at careless
    obtain ⟨d, cld, before, capture⟩ := careless
    have other : d ≠ c := by
      rintro rfl
      rw [found] at before
      cases before
      rw [pc] at capture
      cases capture
    intro opened
    have broken := opened d cld c _ (by rw [modify_ne _ other, before]) capture
      (modify_self _ found)
    cases broken
  | closeTwice found pc closed =>
    rw [wired.opened found (by rw [pc]; simp [Closed])] at closed
    cases closed
  | _ => exact absurd trivial careless

theorem reached_capturesOpen (reached : process.Reached ClosesUncaptured s) : CapturesOpen s := by
  refine reached.invariant_under CapturesOpen (fun s reached => reached_wired reached) ?_
    fun s a s' wired opened careful moved => step_capturesOpen wired opened careful moved
  rintro s ⟨path, pusher, rfl⟩ c cl target clt found
  cases found

/-- **No send on a closed channel, exactly.** In every run that never closes a
captured channel, every send that can execute in any state reached finds its
channel open; and the next step keeps it so if and only if it closes no captured
channel either. -/
theorem sends_open_iff_closes_uncaptured (reached : process.Reached ClosesUncaptured s) :
    SendsOpen s ∧
      ∀ a s', process.step s a = some s' → (SendsOpen s' ↔ ClosesUncaptured s a) := by
  have wired := reached_wired reached
  have opened := reached_capturesOpen reached
  refine ⟨(sendsOpen_iff wired).mpr opened, ?_⟩
  intro a s' moved
  rw [sendsOpen_iff (step_wired wired moved)]
  constructor
  · intro after
    by_contra careless
    exact careless_close_breaks wired careless moved after
  · exact fun careful => step_capturesOpen wired opened careful moved

/-! ## The race -/

/-- Alice's `route` captures Bob's connection, and Bob's socket dies. -/
def capturedThenGone : List Action :=
  [ .connect "alice" 1, .at 0 (.register 0 true), .at 0 .startWriter,
    .connect "bob" 1, .at 1 (.register 0 true), .at 1 .startWriter,
    .at 0 sendLetter, .at 1 .readError, .at 1 .unregister ]

/-- Where Alice's handler stands and whether Bob's channel is closed. -/
def aliceAndBob (s : Relay) : Option (Pc × Bool) := do
  let alice ← s.clients 0
  let bob ← s.clients 1
  some (alice.pc, bob.outClosed)

theorem aliceAndBob_eq {pc : Pc} {closed : Bool} (seen : aliceAndBob s = some (pc, closed)) :
    ∃ alice bob, s.clients 0 = some alice ∧ s.clients 1 = some bob ∧ alice.pc = pc ∧
      bob.outClosed = closed := by
  simp only [aliceAndBob, Option.bind_eq_bind, Option.bind_eq_some_iff, Option.some.injEq,
    Prod.mk.injEq] at seen
  obtain ⟨alice, alice_found, bob, bob_found, pc, closed⟩ := seen
  exact ⟨alice, bob, alice_found, bob_found, pc, closed⟩

/-- Up to here every send is safe, and closing Bob's channel next is not. -/
theorem next_close_is_careless : ∃ s, process.Reached ClosesUncaptured s ∧
    ¬ ClosesUncaptured s (.at 1 .closeOut) ∧ SendsOpen s ∧
      ∀ a s', process.step s a = some s' → (SendsOpen s' ↔ ClosesUncaptured s a) := by
  let env : Envelope := { letter with id := "env-1" }
  have observed : (process.run (started (newHub "" false) none) capturedThenGone).bind aliceAndBob =
      some (.routing 1 env "", false) := by decide +kernel
  obtain ⟨s, ran, seen⟩ := Option.bind_eq_some_iff.mp observed
  obtain ⟨alice, _, found, _, pc, _⟩ := aliceAndBob_eq seen
  have reached : process.Reached ClosesUncaptured s := by
    refine .run (.start ⟨"", false, rfl⟩) capturedThenGone ?_ ran
    intro s a member
    simp only [capturedThenGone, sendLetter, List.mem_cons, List.not_mem_nil, or_false] at member
    rcases member with rfl | rfl | rfl | rfl | rfl | rfl | rfl | rfl | rfl <;> trivial
  refine ⟨s, reached, ?_, sends_open_iff_closes_uncaptured reached⟩
  intro careful
  exact careful 0 alice found (by rw [pc]; rfl)

/-- Bob's handler closes the channel that Alice's `route` is about to send to. -/
theorem send_on_closed_channel_reachable : ¬ ∀ s, process.Reachable s → SendsOpen s := by
  let env : Envelope := { letter with id := "env-1" }
  have observed : (process.run (started (newHub "" false) none)
      (capturedThenGone ++ [.at 1 .closeOut])).bind aliceAndBob =
        some (.routing 1 env "", true) := by decide +kernel
  obtain ⟨s, ran, seen⟩ := Option.bind_eq_some_iff.mp observed
  obtain ⟨alice, bob, alice_found, bob_found, pc, closed⟩ := aliceAndBob_eq seen
  intro always
  have reached : process.Reachable s := Machine.reachable_of_run ⟨"", false, rfl⟩ _ ran
  have opened := always s reached 0 alice 1 bob alice_found (by rw [pc]; rfl) bob_found
  rw [closed] at opened
  cases opened

end Hwfa.RelayClosing
