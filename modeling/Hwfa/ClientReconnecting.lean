import Hwfa.ClientCoherence

/-!
Whether the client ever stops trying to be online.

`connectRelay` rejects before its try block when the access token cannot be
refreshed, and then nobody reschedules it: the timer's callback drops the
rejection.  The condition lets a call end so only while something else is still
going to bring the client online.
-/

namespace Hwfa.ClientReconnecting

open Hwfa.Machines Hwfa.Maps Hwfa.ClientLifecycle Hwfa.ClientCoherence

/-- A call that can still create a socket or reschedule. -/
def Call.open_ (call : Call) : Bool := call ≠ .opening (some true)

/-- Something is going to bring the client online, or has: while it is closed on
purpose a call that will undo that, else the timer, a call that goes on or
reschedules, or an open socket, whose close event reschedules. -/
def pursued (c : Client) : Bool :=
  if c.intentionalClose then c.calls.values.any fun call => call matches .ensuring _
  else
    c.reconnectTimer.isSome || c.calls.values.any Call.open_ || c.sockets.values.any Socket.usable

/-- The call will reject: the refresh has failed, or there is no token. -/
def refused (c : Client) (call : Nat) : Bool :=
  match c.calls.lookup call with
  | some (.ensuring awaited) => c.discovery.answer awaited = some false || c.discovery.token = ""
  | _ => false

/-- A `connectRelay` that gets no access token leaves somebody else at it. -/
def Refreshed (c : Client) : Action → Prop
  | .ensured call _ =>
    refused c call = true → c.userId ≠ "" → c.closed = false → pursued (c.forget call) = true
  | _ => True

instance (c : Client) : (a : Action) → Decidable (Refreshed c a)
  | .ensured .. => inferInstanceAs (Decidable (_ → _))
  | .setTokens .. | .onboard | .onboarded .. | .onboardFailed | .resume .. | .connectRelay .. | .timer .. | .refresh
  | .refreshed .. | .onOpen .. | .onError .. | .onClose .. | .onMessage .. | .settled .. | .send
  | .registerPushToken .. | .close | .deleteAccount => inferInstanceAs (Decidable True)

/-- No relay socket is open or opening. -/
def Offline (c : Client) : Prop := ∀ k s, c.sockets.lookup k = some s → s.live = false

/-- The client wants to be online and is at it. -/
def Pursued (c : Client) : Prop := c.userId ≠ "" → c.closed = false → pursued c = true

variable {c c' : Client} {t k : Nat} {s : Socket}

theorem pursued_iff : pursued c = true ↔
    if c.intentionalClose then ∃ t awaited, c.calls.lookup t = some (.ensuring awaited)
    else c.reconnectTimer.isSome = true ∨
      (∃ t call, c.calls.lookup t = some call ∧ call ≠ .opening (some true)) ∨
      ∃ k s, c.sockets.lookup k = some s ∧ s.usable = true := by
  unfold pursued
  split
  · rw [List.any_eq_true]
    constructor
    · rintro ⟨call, member, ensuring⟩
      obtain ⟨t, found⟩ := FinMap.mem_values.mp member
      cases call with
      | ensuring awaited => exact ⟨t, awaited, found⟩
      | opening outcome => cases ensuring
    · rintro ⟨t, awaited, found⟩
      exact ⟨_, FinMap.mem_values.mpr ⟨t, found⟩, rfl⟩
  · rw [Bool.or_eq_true, Bool.or_eq_true, List.any_eq_true, List.any_eq_true, or_assoc]
    refine or_congr Iff.rfl (or_congr ?_ ?_)
    · constructor
      · rintro ⟨call, member, going⟩
        obtain ⟨t, found⟩ := FinMap.mem_values.mp member
        exact ⟨t, call, found, by simpa [Call.open_] using going⟩
      · rintro ⟨t, call, found, going⟩
        exact ⟨call, FinMap.mem_values.mpr ⟨t, found⟩, by simpa [Call.open_] using going⟩
    · constructor
      · rintro ⟨s, member, usable⟩
        obtain ⟨k, found⟩ := FinMap.mem_values.mp member
        exact ⟨k, s, found, usable⟩
      · rintro ⟨k, s, found, usable⟩
        exact ⟨s, FinMap.mem_values.mpr ⟨k, found⟩, usable⟩

theorem pursued_of_ensuring {awaited : Option Nat} (found : c.calls.lookup t = some (.ensuring awaited)) :
    pursued c = true := by
  rw [pursued_iff]
  split
  · exact ⟨t, awaited, found⟩
  · exact .inr (.inl ⟨t, _, found, by simp⟩)

theorem pursued_of_timer (unclosed : c.intentionalClose = false) (timer : c.reconnectTimer.isSome = true) :
    pursued c = true := by
  rw [pursued_iff, if_neg (by simp [unclosed])]
  exact .inl timer

theorem pursued_of_call {call : Call} (unclosed : c.intentionalClose = false)
    (found : c.calls.lookup t = some call) (going : call ≠ .opening (some true)) : pursued c = true := by
  rw [pursued_iff, if_neg (by simp [unclosed])]
  exact .inr (.inl ⟨t, call, found, going⟩)

theorem pursued_of_socket (unclosed : c.intentionalClose = false)
    (found : c.sockets.lookup k = some s) (usable : s.usable = true) : pursued c = true := by
  rw [pursued_iff, if_neg (by simp [unclosed])]
  exact .inr (.inr ⟨k, s, found, usable⟩)

/-- A step that takes nothing away from what pursues the connection. -/
theorem pursued_mono (before : pursued c = true) (intentional : c'.intentionalClose = c.intentionalClose)
    (timer : c.reconnectTimer.isSome = true → c'.reconnectTimer.isSome = true)
    (ensuring : ∀ t awaited, c.calls.lookup t = some (.ensuring awaited) →
      c'.calls.lookup t = some (.ensuring awaited))
    (calls : ∀ t call, c.calls.lookup t = some call → call ≠ .opening (some true) →
      ∃ call', c'.calls.lookup t = some call' ∧ call' ≠ .opening (some true))
    (sockets : ∀ k s, c.sockets.lookup k = some s → s.usable = true →
      ∃ s', c'.sockets.lookup k = some s' ∧ s'.usable = true) : pursued c' = true := by
  rw [pursued_iff] at before ⊢
  rw [intentional]
  split
  · next closed =>
    rw [if_pos closed] at before
    obtain ⟨t, awaited, found⟩ := before
    exact ⟨t, awaited, ensuring t awaited found⟩
  · next unclosed =>
    rw [if_neg unclosed] at before
    rcases before with pending | ⟨t, call, found, going⟩ | ⟨k, s, found, usable⟩
    · exact .inl (timer pending)
    · obtain ⟨call', found', going'⟩ := calls t call found going
      exact .inr (.inl ⟨t, call', found', going'⟩)
    · obtain ⟨s', found', usable'⟩ := sockets k s found usable
      exact .inr (.inr ⟨k, s', found', usable'⟩)

/-- The fields the pursuit does not depend on. -/
theorem Pursued.quiet (pursuing : Pursued c) (userId : c'.userId = c.userId) (closed : c'.closed = c.closed)
    (intentional : c'.intentionalClose = c.intentionalClose)
    (timer : c'.reconnectTimer = c.reconnectTimer) (calls : c'.calls = c.calls)
    (sockets : c'.sockets = c.sockets) : Pursued c' := by
  intro identity wanted
  rw [userId] at identity
  rw [closed] at wanted
  refine pursued_mono (pursuing identity wanted) intentional ?_ ?_ ?_ ?_
  · rw [timer]
    exact id
  · rw [calls]
    exact fun _ _ found => found
  · rw [calls]
    exact fun t call found going => ⟨call, found, going⟩
  · rw [sockets]
    exact fun k s found usable => ⟨s, found, usable⟩

theorem connectRelay_pursued (c : Client) (expiring : Bool) (identity : c.userId ≠ "") :
    pursued (c.connectRelay expiring) = true := by
  apply pursued_of_ensuring (t := c.nextCall)
  rw [Client.connectRelay, if_neg identity, FinMap.lookup_insert_apply, if_pos rfl]

theorem connectRelay_userId (c : Client) (expiring : Bool) :
    (c.connectRelay expiring).userId = c.userId := by
  unfold Client.connectRelay
  split
  · rfl
  · rfl

theorem request_pursued (c : Client) (asked expiring : Bool) :
    Pursued (c.request asked expiring) := by
  intro identity _
  unfold Client.request at identity ⊢
  split
  · next anonymous =>
    rw [if_pos anonymous] at identity
    exact absurd anonymous identity
  · next named => exact connectRelay_pursued c expiring named

/-- A call that finds a relay connection in place leaves it in charge. -/
theorem granted_pursued {awaited : Option Nat} {constructs : Bool} (coherent : Coherent c)
    (found : c.calls.lookup t = some (.ensuring awaited)) : Pursued (c.granted t constructs) := by
  intro identity _
  unfold Client.granted at identity ⊢
  split
  · next held =>
    obtain ⟨k, held⟩ := Option.isSome_iff_exists.mp held
    obtain ⟨unclosed, -, s, socket, released, phase, failed⟩ := coherent.relay k held
    have kept {outcome : Option Bool} (opening : c.calls.lookup k = some (.opening outcome)) :
        (c.forget t).calls.lookup k = some (.opening outcome) :=
      lookup_forget found opening (by simp)
    cases standing : s.phase with
    | connecting =>
      exact pursued_of_call unclosed (kept (coherent.connecting k s socket standing)) (by simp)
    | opened => exact pursued_of_socket unclosed socket (by simp [Socket.usable, released, standing])
    | failed => exact pursued_of_call unclosed (kept (failed standing)) (by simp)
    | closed => exact absurd standing phase
  · next idle =>
    rw [if_neg idle] at identity
    split
    · refine pursued_of_call (t := t) rfl ?_ (by simp : Call.opening none ≠ .opening (some true))
      rw [FinMap.lookup_insert_apply, if_pos rfl]
    · next throws =>
      rw [if_neg throws] at identity
      obtain ⟨timer, attempt, same, schedules, -⟩ :=
        connectFailed_eq { c with intentionalClose := false, connState := .connecting }
      rw [same] at identity ⊢
      exact pursued_of_timer rfl (schedules rfl identity)

theorem onOpen_pursued (pursuing : Pursued c) (held : s.released = false) : Pursued (c.onOpen k s) := by
  intro identity wanted
  by_cases intentional : c.intentionalClose = true
  · have before := pursuing identity wanted
    rw [pursued_iff, if_pos intentional] at before
    obtain ⟨t, awaited, found⟩ := before
    apply pursued_of_ensuring (t := t)
    rw [Client.onOpen, settle_lookup, if_neg, found]
    rintro ⟨rfl, pending⟩
    rw [found] at pending
    cases pending
  · refine pursued_of_socket (k := k) (s := { s with phase := .opened }) ?_ ?_ ?_
    · simpa [Client.onOpen, Client.breach] using intentional
    · rw [Client.onOpen, FinMap.lookup_insert_apply, if_pos rfl]
    · simp [Socket.usable, held]

theorem onError_pursued (pursuing : Pursued c) (found : c.sockets.lookup k = some s) :
    Pursued (c.onError k s) := by
  intro identity wanted
  have call (t : Nat) : (c.onError k s).calls.lookup t = _ := settle_lookup false t
  refine pursued_mono (pursuing identity wanted) rfl id ?_ ?_ ?_
  · intro t awaited ensuring
    rw [call, if_neg, ensuring]
    rintro ⟨rfl, pending⟩
    rw [ensuring] at pending
    cases pending
  · intro t before waiting going
    rw [call]
    split
    · exact ⟨_, rfl, by simp⟩
    · exact ⟨before, waiting, going⟩
  · intro k' s₁ socket usable
    rw [Client.onError, FinMap.lookup_insert_apply]
    split
    · next own =>
      subst own
      rw [found] at socket
      cases socket
      refine ⟨_, rfl, ?_⟩
      have opened : s.phase = .opened := by
        simp only [Socket.usable, Bool.and_eq_true, decide_eq_true_eq] at usable
        exact usable.2
      simpa [Socket.usable, opened] using usable
    · exact ⟨s₁, socket, usable⟩

theorem onClose_pursued (pursuing : Pursued c) : Pursued (c.onClose k s) := by
  obtain ⟨state, timer, attempt, same, schedules, keeps, -⟩ := handleSocketClosed_eq
    { c with sockets := c.sockets.insert k { s with phase := .closed } }
  intro identity wanted
  rw [Client.onClose, same] at identity wanted ⊢
  by_cases intentional : c.intentionalClose = true
  · have before := pursuing identity wanted
    rw [pursued_iff, if_pos intentional] at before
    obtain ⟨t, awaited, found⟩ := before
    exact pursued_of_ensuring (t := t) found
  · have unclosed : c.intentionalClose = false := by simpa using intentional
    exact pursued_of_timer unclosed (schedules unclosed identity)

/-- A call whose promise has settled is over. -/
theorem forget_pursued (pursuing : Pursued c) (found : c.calls.lookup t = some (.opening (some true))) :
    Pursued (c.forget t) := by
  intro identity wanted
  refine pursued_mono (pursuing identity wanted) rfl id ?_ ?_ fun k s socket usable => ⟨s, socket, usable⟩
  · intro t' awaited ensuring
    exact lookup_forget found ensuring (by simp)
  · intro t' call waiting going
    exact ⟨call, lookup_forget found waiting going, going⟩

theorem transmit_pursued (pursuing : Pursued c) : Pursued c.transmit := by
  obtain ⟨breaches, same, -⟩ := transmit_eq c
  rw [same]
  exact pursuing.quiet rfl rfl rfl rfl rfl rfl

theorem connected_pursued (pursuing : Pursued c)
    (found : c.calls.lookup t = some (.opening (some true))) : Pursued (c.connected t) := by
  have online : Pursued { c.forget t with connState := .connected } :=
    (forget_pursued pursuing found).quiet rfl rfl rfl rfl rfl rfl
  unfold Client.connected
  simp only
  split
  · exact transmit_pursued online
  · exact online

theorem failed_pursued (pursuing : Pursued c)
    (found : c.calls.lookup t = some (.opening (some false))) : Pursued (c.forget t).connectFailed := by
  obtain ⟨timer, attempt, same, schedules, -⟩ := connectFailed_eq (c.forget t)
  intro identity wanted
  rw [same] at identity wanted ⊢
  by_cases intentional : c.intentionalClose = true
  · have before := pursuing identity wanted
    rw [pursued_iff, if_pos intentional] at before
    obtain ⟨t', awaited, ensuring⟩ := before
    exact pursued_of_ensuring (t := t') (lookup_forget found ensuring (by simp))
  · have unclosed : c.intentionalClose = false := by simpa using intentional
    exact pursued_of_timer unclosed (schedules unclosed identity)

theorem step_pursued {a : Action} (coherent : Coherent c) (pursuing : Pursued c)
    (refreshed : Refreshed c a) (moved : c.step a = some c') : Pursued c' := by
  cases step_moves moved with
  | tokens discovery _ => exact pursuing.quiet rfl rfl rfl rfl rfl rfl
  | onboard => exact pursuing.quiet rfl rfl rfl rfl rfl rfl
  | onboardFailed _ => exact pursuing.quiet rfl rfl rfl rfl rfl rfl
  | request discovery userId onboarding asked expiring _ => exact request_pursued _ asked expiring
  | timer _ =>
    intro identity _
    rw [connectRelay_userId] at identity
    exact connectRelay_pursued _ _ identity
  | granted found _ _ => exact granted_pursued coherent found
  | refused found answered without =>
    intro identity wanted
    refine refreshed ?_ identity wanted
    rcases without with rfl | none
    · simp [ClientReconnecting.refused, found, answered]
    · simp [ClientReconnecting.refused, found, none]
  | onOpen _ _ held => exact onOpen_pursued pursuing held
  | onError found _ => exact onError_pursued pursuing found
  | onClose _ _ => exact onClose_pursued pursuing
  | onMessage _ _ =>
    unfold Client.onMessage
    split
    · exact pursuing.quiet rfl rfl rfl rfl rfl rfl
    · exact pursuing
  | connected found => exact connected_pursued pursuing found
  | failed found => exact failed_pursued pursuing found
  | send => exact transmit_pursued pursuing
  | @registerPushToken token =>
    have registered : Pursued { c with pushToken := token } := pursuing.quiet rfl rfl rfl rfl rfl rfl
    exact transmit_pursued registered
  | close =>
    intro _ wanted
    cases wanted
  | deleteAccount =>
    intro _ wanted
    cases wanted

theorem reached_pursued (reached : client.Reached Refreshed c) : Pursued c := by
  refine reached.invariant_under Pursued (fun _ => reached_coherent) ?_ ?_
  · rintro c rfl
    intro identity
    exact absurd rfl identity
  · intro c a c' coherent pursuing refreshed moved
    exact step_pursued coherent pursuing refreshed moved

/-- **The client is not stranded offline.** In every run in which no
`connectRelay` gives up for want of an access token while nothing else is at
it, a client that has an identity, was not closed and has no socket open or
opening has a reconnect timer set or a `connectRelay` in progress. -/
theorem client_keeps_reconnecting (reached : client.Reached Refreshed c) (identity : c.userId ≠ "")
    (wanted : c.closed = false) (offline : Offline c) :
    c.reconnectTimer.isSome = true ∨ ∃ t call, c.calls.lookup t = some call := by
  have before := reached_pursued reached identity wanted
  rw [pursued_iff] at before
  split at before
  · obtain ⟨t, awaited, found⟩ := before
    exact .inr ⟨t, _, found⟩
  · rcases before with timer | ⟨t, call, found, _⟩ | ⟨k, s, found, usable⟩
    · exact .inl timer
    · exact .inr ⟨t, call, found⟩
    · have dead := offline k s found
      rw [Socket.live_of_usable usable] at dead
      cases dead

theorem offline_of_values (dead : ∀ live ∈ c.sockets.values.map Socket.live, live = false) :
    Offline c := by
  intro k s found
  exact dead _ (List.mem_map_of_mem (FinMap.mem_values.mpr ⟨k, found⟩))

/-- The client comes online, and loses its socket when its access token expires. -/
def dropped : List Action :=
  [.setTokens "access" "refresh", .resume "alice" false, .ensured 0 true, .onOpen 0, .settled 0,
    .onClose 0]

theorem dropped_client_keeps_reconnecting : ∃ c, client.Reached Refreshed c ∧ c.userId ≠ "" ∧
    c.closed = false ∧ Offline c ∧
    (c.reconnectTimer.isSome = true ∨ ∃ t call, c.calls.lookup t = some call) := by
  have observed : (client.checkedRun Refreshed {} dropped).map (fun c =>
      (c.userId, c.closed, c.sockets.values.map Socket.live)) = some ("alice", false, [false]) := by
    decide +kernel
  obtain ⟨c, reached, seen⟩ := Machine.reached_of_observed observed (.start rfl)
  simp only [Prod.mk.injEq] at seen
  obtain ⟨userId, wanted, sockets⟩ := seen
  have identity : c.userId ≠ "" := by simp [userId]
  have offline : Offline c := offline_of_values (by simp [sockets])
  exact ⟨c, reached, identity, wanted, offline,
    client_keeps_reconnecting reached identity wanted offline⟩

/-- The timer fires while Discovery cannot be reached: the refresh fails, the
rejection is dropped, and nobody tries again. -/
theorem failed_refresh_strands_client : ¬ ∀ c, client.Reachable c → c.userId ≠ "" →
    c.closed = false → Offline c →
      c.reconnectTimer.isSome = true ∨ ∃ t call, c.calls.lookup t = some call := by
  have observed : (client.run {} (dropped ++ [.timer true, .refreshed none, .ensured 1 true])).map
      (fun c => (c.userId, c.closed, c.sockets.values.map Socket.live, c.reconnectTimer,
        c.calls.values.length)) = some ("alice", false, [false], none, 0) := by decide +kernel
  obtain ⟨c, reachable, seen⟩ := Machine.reachable_of_observed observed rfl
  simp only [Prod.mk.injEq] at seen
  obtain ⟨userId, wanted, sockets, timer, calls⟩ := seen
  intro pursued
  have offline : Offline c := offline_of_values (by simp [sockets])
  rcases pursued c reachable (by simp [userId]) wanted offline with
    set | ⟨t, call, found⟩
  · rw [timer] at set
    cases set
  · have member := FinMap.mem_values.mpr ⟨t, found⟩
    rw [List.length_eq_zero_iff.mp calls] at member
    cases member

end Hwfa.ClientReconnecting
