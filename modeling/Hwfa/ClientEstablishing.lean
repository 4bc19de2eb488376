import Hwfa.ClientPipeline

/-!
The sessions that `HwfaClient` establishes (`packages/client/src/client.ts`,
`ensureSession`, `handleDeliver`).

`ensureSession` asks whether it knows the device of a peer, waits for the bundle, and
establishes a session without asking again.  A call is `Rechecked` if a second look, and
one at the other calls, would have let it through; `one_session_iff` says that these are
the calls that leave one session for each device.
-/

namespace Hwfa.ClientEstablishing

open Hwfa.Machines Hwfa.Maps Hwfa.ClientPipeline
open Hwfa.ClientSessions (Bundle)

/-- There is no session with the device, and none is being established. -/
structure Due (deviceUserId : String) (before : List SessionEvent) : Prop where
  unestablished : SessionEvent.established deviceUserId ∉ before
  uncompleted : SessionEvent.completed deviceUserId ∉ before
  settled : before.count (.establishing deviceUserId) = before.count (.refused deviceUserId)

/-- `establishSession` is called for a device only where there is no session with it,
and none is being established. -/
def OneSession (sessions : List SessionEvent) : Prop :=
  ∀ before d, before ++ [.establishing d] <+: sessions → Due d before

/-- The device whose `establishSession` a call waits for. -/
def establishes (task : Send) : Option String :=
  match task.stage with
  | .establishing d _ => some d
  | _ => none

/-- When the bundle of a device arrives that was not known, it still is not, and no
other call establishes a session with it. -/
def Rechecked (c : Client) : Action → Bool
  | .fetched id (some _) =>
    match (c.sends.lookup id).map Send.stage with
    | some (.fetching d) =>
      (c.peerDevice.lookup d).isNone && c.sends.values.countP (establishes · = some d) = 0
    | _ => true
  | _ => true

variable {c c' : Client} {id : Nat} {task : Send} {a : Action} {round : Round}

/-! ## The log -/

theorem oneSession_nil : OneSession [] := by
  intro before d first
  exact absurd (List.prefix_nil.mp first) (by simp)

/-- A call of `establishSession` has to be due. -/
theorem oneSession_establishing {sessions : List SessionEvent} {d : String} :
    OneSession (sessions ++ [.establishing d]) ↔ OneSession sessions ∧ Due d sessions := by
  constructor
  · intro one
    exact ⟨fun before e first => one before e (first.trans (List.prefix_append _ _)),
      one sessions d (List.prefix_refl _)⟩
  · rintro ⟨one, due⟩ before e first
    rcases List.prefix_concat_iff.mp first with same | first
    · obtain ⟨rfl, last⟩ := List.append_inj' same rfl
      cases last
      exact due
    · exact one before e first

/-- What else happens to a session is of no consequence. -/
theorem oneSession_other {sessions : List SessionEvent} {event : SessionEvent}
    (other : ∀ d, event ≠ .establishing d) :
    OneSession (sessions ++ [event]) ↔ OneSession sessions := by
  constructor
  · exact fun one before e first => one before e (first.trans (List.prefix_append _ _))
  · intro one before e first
    rcases List.prefix_concat_iff.mp first with same | first
    · obtain ⟨-, last⟩ := List.append_inj' same rfl
      cases last
      exact absurd rfl (other e)
    · exact one before e first

/-! ## The log and the state -/

/-- A device is known once there is a session with it, and every call of
`establishSession` that has not answered has a call of `sendText` waiting for it. -/
structure Recorded (c : Client) : Prop where
  known : ∀ d, (c.peerDevice.lookup d).isSome ↔
    .established d ∈ c.sessions ∨ .completed d ∈ c.sessions
  flying : ∀ d, c.sessions.count (.establishing d) = c.sessions.count (.established d) +
    c.sessions.count (.refused d) + c.sends.values.countP (establishes · = some d)

/-- A session is due exactly if a second look lets the call through. -/
theorem Recorded.due_iff (recorded : Recorded c) (d : String) :
    Due d c.sessions ↔ c.peerDevice.lookup d = none ∧
      c.sends.values.countP (establishes · = some d) = 0 := by
  have known := recorded.known d
  have flying := recorded.flying d
  constructor
  · intro due
    have unestablished := List.count_eq_zero.mpr due.unestablished
    refine ⟨?_, by have := due.settled; omega⟩
    cases found : c.peerDevice.lookup d with
    | none => rfl
    | some device =>
      rw [found] at known
      rcases known.mp rfl with established | completed
      · exact absurd established due.unestablished
      · exact absurd completed due.uncompleted
  · rintro ⟨unknown, alone⟩
    rw [unknown] at known
    have unestablished : SessionEvent.established d ∉ c.sessions :=
      fun established => absurd (known.mpr (.inl established)) (by simp)
    have uncompleted : SessionEvent.completed d ∉ c.sessions :=
      fun completed => absurd (known.mpr (.inr completed)) (by simp)
    have none_established := List.count_eq_zero.mpr unestablished
    exact ⟨unestablished, uncompleted, by omega⟩

/-! ## Steps -/

/-- The calls that meet a test, before and after one of them has gone on. -/
theorem Rounds.countP_after (found : c.sends.lookup id = some task)
    (rounds : Rounds c id task a round) (p : Send → Bool) :
    (Client.after id round).sends.values.countP p + [task].countP p =
      c.sends.values.countP p + round.call.toList.countP p := by
  have before := (FinMap.values_perm_cons found).countP_eq p
  have after : (Client.after id round).sends.values =
      round.call.toList ++ FinMap.values (c.sends.erase id) := by
    unfold Client.after
    dsimp only
    rw [rounds.keeps.1]
    cases round.call with
    | none => rfl
    | some task' => rfl
  rw [before, after, List.countP_append, List.countP_cons, List.countP_cons, List.countP_nil]
  omega

/-- What the answer to a call tells of a session. -/
def told (task : Send) : Action → Option SessionEvent
  | .fetched _ (some _) =>
    match task.stage with
    | .fetching d => some (.establishing d)
    | _ => none
  | .established _ accepted =>
    match task.stage with
    | .establishing d _ => some (if accepted then .established d else .refused d)
    | _ => none
  | _ => none

/-- What a call logs and learns until its next await. -/
structure Logged (c : Client) (task : Send) (round : Round) (event : Option SessionEvent) :
    Prop where
  sessions : round.client.sessions = c.sessions ++ event.toList
  uncompleted : ∀ d, event ≠ some (.completed d)
  known : ∀ d, (round.client.peerDevice.lookup d).isSome ↔
    (c.peerDevice.lookup d).isSome ∨ event = some (.established d)
  flying : ∀ d, event.toList.count (.establishing d) + [task].countP (establishes · = some d) =
    event.toList.count (.established d) + event.toList.count (.refused d) +
      round.call.toList.countP (establishes · = some d)

/-- A call that neither waits for `establishSession` nor will logs nothing. -/
theorem Logged.quiet (sessions : round.client.sessions = c.sessions)
    (peerDevice : round.client.peerDevice = c.peerDevice) (before : establishes task = none)
    (after : ∀ task' ∈ round.call.toList, establishes task' = none) :
    Logged c task round none := by
  refine ⟨by simp [sessions], by simp, by simp [peerDevice], fun d => ?_⟩
  have idle : round.call.toList.countP (establishes · = some d) = 0 :=
    List.countP_eq_zero.mpr fun task' called => by simp [after task' called]
  simp [idle, before]

/-- The answer to a call that backfills an identity tells of no session. -/
theorem told_backfilling {d : String} {device : Int} (stage : task.stage = .backfilling d device) :
    told task a = none := by
  unfold told
  rw [stage]
  split <;> rfl

theorem logged_of_rounds (rounds : Rounds c id task a round) :
    Logged c task round (told task a) := by
  cases rounds with
  | establishes stage =>
    rw [told, stage]
    refine ⟨rfl, by simp, by simp, fun d => ?_⟩
    simp [establishes, stage, List.count_singleton]
  | accepted stage =>
    rw [told, stage]
    refine ⟨rfl, by simp, fun d => ?_, fun d => ?_⟩
    · rw [FinMap.lookup_insert_apply]
      split
      · next same => simp [same]
      · next other => simp [Ne.symm other]
    · simp [establishes, stage, List.count_singleton]
  | refused stage =>
    rw [told, stage]
    refine ⟨rfl, by simp, by simp, fun d => ?_⟩
    simp [establishes, stage, List.count_singleton]
  | backfilled stage =>
    rw [told_backfilling stage]
    exact .quiet rfl rfl (by rw [establishes, stage]) (by simp [establishes])
  | listed stage | skips stage | fetches stage | backfills stage | knows stage | unbundled stage
  | encrypts stage | writes stage | drops stage =>
    exact .quiet rfl rfl (by rw [establishes, stage]) (by simp [establishes, Client.listed])
  | ends stage => exact .quiet rfl rfl (by rw [establishes, stage]) (by simp)

theorem Recorded.turn (recorded : Recorded c) (found : c.sends.lookup id = some task)
    (rounds : Rounds c id task a round) : Recorded (Client.after id round) := by
  have logged := logged_of_rounds rounds
  have sessions : (Client.after id round).sessions = c.sessions ++ (told task a).toList :=
    logged.sessions
  refine ⟨fun d => ?_, fun d => ?_⟩
  · change (round.client.peerDevice.lookup d).isSome ↔ _
    rw [logged.known d, recorded.known d, sessions]
    have uncompleted := logged.uncompleted d
    simp only [List.mem_append, Option.mem_toList]
    tauto
  · have counted := Rounds.countP_after found rounds (establishes · = some d)
    have before := recorded.flying d
    have settled := logged.flying d
    rw [sessions, List.count_append, List.count_append, List.count_append]
    omega

/-- A message of a device that is decrypted makes the device known. -/
theorem Recorded.decrypted (recorded : Recorded c) (frame : Nat) (env : Inbound)
    (reply : Option String) : Recorded (c.decrypted frame env reply) := by
  cases reply with
  | none => exact ⟨recorded.known, recorded.flying⟩
  | some text =>
    refine ⟨fun d => ?_, fun d => ?_⟩
    · have known := recorded.known d
      have learned : ((c.decrypted frame env (some text)).peerDevice.lookup d).isSome ↔
          (c.peerDevice.lookup d).isSome ∨ d = env.senderId := by
        unfold Client.decrypted
        dsimp only
        split
        · next knew =>
          constructor
          · exact .inl
          · rintro (knows | rfl)
            · exact knows
            · exact knew
        · rw [FinMap.lookup_insert_apply]
          split
          · next same => simp [same]
          · next other => simp [other]
      rw [learned, known]
      simp only [Client.decrypted, List.mem_append, List.mem_singleton, reduceCtorEq, or_false,
        SessionEvent.completed.injEq]
      tauto
    · have flying := recorded.flying d
      simpa [Client.decrypted, List.count_append, List.count_singleton] using flying

theorem step_recorded (numbered : Numbered c) (recorded : Recorded c)
    (moved : c.step a = some c') : Recorded c' := by
  cases moves_of_step moved with
  | turns called found rounds => exact recorded.turn found rounds
  | calls task stage =>
    refine ⟨recorded.known, fun d => ?_⟩
    have fresh : c.sends.lookup c.calls = none := by
      cases found : c.sends.lookup c.calls with
      | none => rfl
      | some other => exact absurd (numbered _ other found) (Nat.lt_irrefl _)
    have idle : establishes task = none := by
      rcases stage with waits | ⟨waits, -⟩ <;> rw [establishes, waits]
    dsimp only
    rw [FinMap.values_insert, FinMap.values_erase_of_none fresh, List.countP_cons_of_neg (by simp [idle])]
    exact recorded.flying d
  | decrypts pending => exact recorded.decrypted ..
  | rejects | delivers env | reconnects => exact ⟨recorded.known, recorded.flying⟩

theorem started_recorded (started : client.start c) : Recorded c := by
  subst started
  exact ⟨fun d => by simp [AList.lookup_empty], fun d => rfl⟩

theorem reached_recorded {ok : Client → Action → Prop} (reached : client.Reached ok c) :
    Recorded c :=
  reached.invariant_under Recorded (fun _ => reached_numbered) (fun _ => started_recorded)
    fun _ _ _ numbered recorded _ moved => step_recorded numbered recorded moved

theorem rechecked_of_idle (idle : a.call = none) : Rechecked c a = true := by
  cases a with
  | listed | loop | fetched | established | encrypt | encrypted => cases idle
  | _ => rfl

theorem rechecked_iff (called : a.call = some id) (found : c.sends.lookup id = some task) :
    Rechecked c a = true ↔ ∀ d, told task a = some (.establishing d) →
      c.peerDevice.lookup d = none ∧ c.sends.values.countP (establishes · = some d) = 0 := by
  cases a with
  | fetched id' reply =>
    cases called
    cases reply with
    | none => simp [Rechecked, told]
    | some bundle => cases stage : task.stage <;> simp [Rechecked, told, found, stage]
  | established id' accepted =>
    cases stage : task.stage <;> cases accepted <;> simp [Rechecked, told, stage]
  | _ => simp [Rechecked, told]

theorem turn_oneSession (recorded : Recorded c) (called : a.call = some id)
    (found : c.sends.lookup id = some task) (rounds : Rounds c id task a round) :
    OneSession (Client.after id round).sessions ↔
      OneSession c.sessions ∧ Rechecked c a = true := by
  have sessions : (Client.after id round).sessions = c.sessions ++ (told task a).toList :=
    (logged_of_rounds rounds).sessions
  rw [sessions, rechecked_iff called found]
  cases answer : told task a with
  | none => simp
  | some event =>
    by_cases asks : ∃ d, event = .establishing d
    · obtain ⟨d, rfl⟩ := asks
      have due := recorded.due_iff d
      simp only [Option.toList_some, oneSession_establishing, due, Option.some.injEq,
        SessionEvent.establishing.injEq, forall_eq']
    · have other : ∀ d, event ≠ .establishing d := fun d same => asks ⟨d, same⟩
      simp [oneSession_other other, other]

/-- A step leaves one session for each device exactly if it is rechecked. -/
theorem step_oneSession (recorded : Recorded c) (moved : c.step a = some c') :
    OneSession c'.sessions ↔ OneSession c.sessions ∧ Rechecked c a = true := by
  cases moves_of_step moved with
  | turns called found rounds => exact turn_oneSession recorded called found rounds
  | @decrypts env reply frame pending =>
    cases reply with
    | none => exact (and_iff_left rfl).symm
    | some text =>
      have other : ∀ d, SessionEvent.completed env.senderId ≠ .establishing d := fun d => by simp
      exact (oneSession_other other).trans (and_iff_left rfl).symm
  | rejects | calls task stage | delivers env => exact (and_iff_left rfl).symm
  | reconnects idle => exact (and_iff_left (rechecked_of_idle idle)).symm

/-- **One session for each device.** A run of sends and deliveries, in any order, leaves at
most one `establishSession` for each device, called where there is no session yet and none
is being established, exactly if every bundle that leads to one arrives while its device
is still unknown and no other call establishes a session with it. -/
theorem one_session_iff : client.Reached (fun c a => Rechecked c a = true) c ↔
    client.Reachable c ∧ OneSession c.sessions :=
  Machine.reached_iff (fun s started => by subst started; exact oneSession_nil)
    fun _ _ _ reachable moved => step_oneSession (reached_recorded reachable) moved

/-- A typing signal and a text are on their way to bob, with whom there is no session. -/
def signalAndText : List Action :=
  [ .resume "alice" 1, .connectRelay, .opened,
    .sendText "bob" "typing" none "r0" 0, .sendText "bob" "hello" (some "r1") "" 0,
    .listed 0 (some ["bob"]) 1, .loop 0, .listed 1 (some ["bob"]) 1, .loop 1,
    .fetched 0 (some ⟨1, some "key"⟩) ]

/-- Both bundles are there before either session is. -/
def bothEstablish : List Action := signalAndText ++ [ .fetched 1 (some ⟨1, some "key"⟩) ]

/-- The second bundle comes after bob's first message has completed a session. -/
def establishAfterInbound : List Action :=
  [ .resume "alice" 1, .connectRelay, .opened, .sendText "bob" "hello" (some "r0") "" 0,
    .listed 0 (some ["bob"]) 1, .loop 0, .deliver ⟨0, "bob", 1⟩, .decrypted 0 (some "hi"),
    .fetched 0 (some ⟨1, some "key"⟩) ]

theorem two_sessions_with_bob :
    (∃ c, client.Reachable c ∧ c.sessions = [.establishing "bob", .establishing "bob"] ∧
      ¬ OneSession c.sessions) ∧
    ∃ c, client.Reachable c ∧ c.sessions = [.completed "bob", .establishing "bob"] ∧
      ¬ OneSession c.sessions := by
  have both : (client.run {} bothEstablish).map Client.sessions =
      some [.establishing "bob", .establishing "bob"] := by decide +kernel
  have inbound : (client.run {} establishAfterInbound).map Client.sessions =
      some [.completed "bob", .establishing "bob"] := by decide +kernel
  constructor
  · obtain ⟨c, reachable, sessions⟩ := Machine.reachable_of_observed both rfl
    refine ⟨c, reachable, sessions, fun one => ?_⟩
    rw [sessions] at one
    have due := one [.establishing "bob"] "bob" (List.prefix_refl _)
    exact absurd due.settled (by decide)
  · obtain ⟨c, reachable, sessions⟩ := Machine.reachable_of_observed inbound rfl
    refine ⟨c, reachable, sessions, fun one => ?_⟩
    rw [sessions] at one
    have due := one [.completed "bob"] "bob" (List.prefix_refl _)
    exact absurd due.uncompleted (by decide)

end Hwfa.ClientEstablishing
