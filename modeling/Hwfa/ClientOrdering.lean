import Hwfa.ClientPipeline

/-!
The order of messages through `HwfaClient` (`packages/client/src/client.ts`).

Nothing makes a call of `sendText` wait for the calls before it, nor an operation on
a session for the one in flight: which of two calls encrypts first is up to the
answers they wait for.  `Serial` admits the steps that keep the order, and
`reached_inOrder` is what holds of the runs made of them.  In the same way
`handleDeliver` hands a text out whenever its `decrypt` answers, and `InTurn` admits
the answers that come in the order of the frames.
-/

namespace Hwfa.ClientOrdering

open Hwfa.Machines Hwfa.Maps Hwfa.ClientPipeline

/-! ## Outbound -/

/-- The encryptions and the envelopes for a device of a peer follow the calls to the
peer, and no address has two crypto operations in flight. -/
structure InOrder (c : Client) : Prop where
  begun : c.begun.Pairwise fun earlier later =>
    earlier.peerUserId = later.peerUserId → earlier.recipientId = later.recipientId →
      earlier.call ≤ later.call
  written : c.written.Pairwise fun earlier later =>
    earlier.peerUserId = later.peerUserId → earlier.recipientId = later.recipientId →
      earlier.call ≤ later.call
  apart : c.operations.Nodup

/-- The address of the crypto operation that a step begins. -/
def operation (c : Client) : Action → Option (String × Int)
  | .fetched id (some bundle) =>
    match (c.sends.lookup id).map Send.stage with
    | some (.fetching d) => some (d, bundle.deviceId)
    | _ => none
  | .encrypt id =>
    match (c.sends.lookup id).map Send.stage with
    | some (.ensured d device) => some (d, device)
    | _ => none
  | .deliver env => some (env.senderId, env.senderDevice)
  | _ => none

/-- The step begins an encryption for a device that an earlier call to the peer may
still encrypt for. -/
def overtakes (c : Client) : Action → Bool
  | .encrypt id => (c.sends.lookup id).any fun task =>
    c.sends.entries.any fun other =>
      other.1 < id && other.2.peerUserId = task.peerUserId && task.stage.device.any other.2.ahead
  | _ => false

/-- A step that overtakes no earlier call, and begins no crypto operation for an
address that has one in flight. -/
def Serial (c : Client) (a : Action) : Bool :=
  !overtakes c a && (operation c a).all fun address => !c.operations.contains address

variable {c c' : Client} {id : Nat} {task : Send} {a : Action} {round : Round}

theorem apart_of_serial (serial : Serial c a = true) {address : String × Int}
    (begins : operation c a = some address) : address ∉ c.operations := by
  obtain ⟨-, apart⟩ := (Bool.and_eq_true _ _).mp serial
  rw [begins, Option.all_some] at apart
  simpa using apart

/-- Where a step that begins an encryption is serial, the earlier calls to the peer are
past the device. -/
theorem passed_of_serial {d : String} {device : Int} (serial : Serial c (.encrypt id) = true)
    (found : c.sends.lookup id = some task) (stage : task.stage = .ensured d device)
    {id' : Nat} {task' : Send} (earlier : id' < id) (found' : c.sends.lookup id' = some task')
    (peer : task'.peerUserId = task.peerUserId) : task'.ahead d = false := by
  obtain ⟨alone, -⟩ := (Bool.and_eq_true _ _).mp serial
  cases passed : task'.ahead d with
  | false => rfl
  | true =>
    have overtaken : overtakes c (.encrypt id) = true := by
      simp only [overtakes, found, Option.any_some]
      refine List.any_eq_true.mpr ⟨⟨id', task'⟩, AList.mem_lookup_iff.mp found', ?_⟩
      simp [earlier, peer, stage, Stage.device, passed]
    rw [overtaken] at alone
    cases alone

/-- The books of the encryptions: who has begun one, and who is past the device. -/
structure Queued (c : Client) : Prop where
  called : ∀ b ∈ c.begun, b.call < c.calls
  passed : ∀ b ∈ c.begun, ∀ id task, id < b.call → c.sends.lookup id = some task →
    task.peerUserId = b.peerUserId → task.ahead b.recipientId = false
  encrypting : ∀ id task d device, c.sends.lookup id = some task →
    task.stage = .encrypting d device → ⟨id, task.peerUserId, d⟩ ∈ c.begun
  written : ∀ w ∈ c.written, ⟨w.call, w.peerUserId, w.recipientId⟩ ∈ c.begun

/-- A call's device is behind no call whose encryption for it was begun. -/
theorem Queued.behind (queued : Queued c) (found : c.sends.lookup id = some task) {d : String}
    (ahead : task.ahead d = true) {b : Begun} (begun : b ∈ c.begun)
    (peer : b.peerUserId = task.peerUserId) (recipient : b.recipientId = d) : b.call ≤ id := by
  by_contra later
  have passed := queued.passed b begun id task (by omega) found peer.symm
  rw [recipient, ahead] at passed
  cases passed

/-- What a call enters in the books until its next await: nothing, an encryption or an
envelope. -/
theorem Rounds.entered (rounds : Rounds c id task a round) :
    (round.client.begun = c.begun ∧ round.client.written = c.written ∧
      ∀ task', round.call = some task' → ∀ d device, task'.stage ≠ .encrypting d device) ∨
    (∃ id' d device, a = .encrypt id' ∧ task.stage = .ensured d device ∧
      round.client.begun = c.begun ++ [⟨id, task.peerUserId, d⟩] ∧
      round.client.written = c.written ∧
      round.call = some { task with stage := .encrypting d device }) ∨
    ∃ d device w, task.stage = .encrypting d device ∧ round.client.begun = c.begun ∧
      round.client.written = c.written ++ [w] ∧ w.call = id ∧ w.peerUserId = task.peerUserId ∧
      w.recipientId = d ∧ round.call = some { task with stage := .next } := by
  cases rounds with
  | encrypts stage => exact .inr (.inl ⟨_, _, _, rfl, stage, rfl, rfl, rfl⟩)
  | writes stage relay => exact .inr (.inr ⟨_, _, _, stage, rfl, rfl, rfl, rfl, rfl, rfl⟩)
  | ends => exact .inl ⟨rfl, rfl, fun task' called => by cases called⟩
  | _ =>
    refine .inl ⟨rfl, rfl, fun task' called d device => ?_⟩
    cases called
    simp

/-- An encryption in the books was there before, or is the one just begun. -/
theorem Rounds.begun_after (rounds : Rounds c id task a round) {b : Begun}
    (begun : b ∈ (Client.after id round).begun) : b ∈ c.begun ∨
      ∃ id' d device, a = .encrypt id' ∧ task.stage = .ensured d device ∧
        b = ⟨id, task.peerUserId, d⟩ := by
  change b ∈ round.client.begun at begun
  rcases Rounds.entered rounds with ⟨same, -⟩ | ⟨id', d, device, rfl, stage, same, -⟩ |
    ⟨d, device, w, -, same, -⟩
  · exact .inl (same ▸ begun)
  · rw [same, List.mem_append, List.mem_singleton] at begun
    rcases begun with before | rfl
    · exact .inl before
    · exact .inr ⟨id', d, device, rfl, stage, rfl⟩
  · exact .inl (same ▸ begun)

/-- The books of the encryptions only grow. -/
theorem Rounds.begun_grows (rounds : Rounds c id task a round) {b : Begun} (begun : b ∈ c.begun) :
    b ∈ (Client.after id round).begun := by
  change b ∈ round.client.begun
  rcases Rounds.entered rounds with ⟨same, -⟩ | ⟨id', d, device, rfl, -, same, -⟩ |
    ⟨d, device, w, -, same, -⟩
  · exact same ▸ begun
  · rw [same]
    exact List.mem_append_left _ begun
  · exact same ▸ begun

/-- A call with an encryption in flight has it in the books. -/
theorem Rounds.encrypting_after (rounds : Rounds c id task a round) {task' : Send} {d : String} {device : Int} (called : round.call = some task')
    (stage : task'.stage = .encrypting d device) :
    ⟨id, task'.peerUserId, d⟩ ∈ (Client.after id round).begun := by
  change _ ∈ round.client.begun
  rcases Rounds.entered rounds with ⟨-, -, idle⟩ | ⟨id', e, device', rfl, -, same, -, now⟩ |
    ⟨e, device', w, -, -, -, -, -, -, now⟩
  · exact absurd stage (idle task' called d device)
  · cases called.symm.trans now
    cases stage
    rw [same]
    exact List.mem_append_right _ (List.mem_singleton_self _)
  · cases called.symm.trans now
    cases stage

/-- An envelope in the books has its encryption there. -/
theorem Queued.written_after (queued : Queued c) (found : c.sends.lookup id = some task)
    (rounds : Rounds c id task a round) {w : Written} (written : w ∈ (Client.after id round).written) :
    ⟨w.call, w.peerUserId, w.recipientId⟩ ∈ (Client.after id round).begun := by
  change w ∈ round.client.written at written
  rcases Rounds.entered rounds with ⟨-, same, -⟩ | ⟨id', e, device', rfl, -, -, same, -⟩ |
    ⟨d, device, w', stage, -, same, call, peer, recipient, -⟩
  · exact Rounds.begun_grows rounds (queued.written w (same ▸ written))
  · exact Rounds.begun_grows rounds (queued.written w (same ▸ written))
  · rw [same, List.mem_append, List.mem_singleton] at written
    rcases written with before | rfl
    · exact Rounds.begun_grows rounds (queued.written w before)
    · rw [call, peer, recipient]
      exact Rounds.begun_grows rounds (queued.encrypting id task d device found stage)

/-- A call that goes on serially keeps the books. -/
theorem Queued.turn (numbered : Numbered c) (queued : Queued c) (called : a.call = some id)
    (found : c.sends.lookup id = some task) (rounds : Rounds c id task a round)
    (serial : Serial c a = true) : Queued (Client.after id round) where
  called := by
    intro b begun
    change b.call < round.client.calls
    rw [rounds.keeps.2.1]
    rcases Rounds.begun_after rounds begun with before | ⟨id', d, device, rfl, -, rfl⟩
    · exact queued.called b before
    · exact numbered id task found
  passed := by
    intro b begun other task' earlier found' peer
    rw [rounds.lookup_after] at found'
    rcases Rounds.begun_after rounds begun with before | ⟨id', d, device, rfl, stage, rfl⟩
    · split at found'
      · next same =>
        subst same
        obtain ⟨kept, shrinks⟩ := rounds.shrinks found'
        have passed := queued.passed b before _ task earlier found (kept ▸ peer)
        cases ahead : task'.ahead b.recipientId with
        | false => rfl
        | true => exact absurd (shrinks _ ahead) (by simp [passed])
      · exact queued.passed b before other task' earlier found' peer
    · cases called
      rw [if_neg (Nat.ne_of_lt earlier)] at found'
      exact passed_of_serial serial found stage earlier found' peer
  encrypting := by
    intro other task' d device found' stage
    rw [rounds.lookup_after] at found'
    split at found'
    · next same =>
      subst same
      exact Rounds.encrypting_after rounds found' stage
    · exact Rounds.begun_grows rounds (queued.encrypting other task' d device found' stage)
  written := fun w written => queued.written_after found rounds written

/-- The address a call's operation is for is the one the step begins. -/
theorem Rounds.operation_begun (rounds : Rounds c id task a round) (called : a.call = some id)
    (found : c.sends.lookup id = some task) {address : String × Int}
    (begun : (round.call.bind fun task' => task'.stage.operation) = some address) :
    operation c a = some address := by
  rcases rounds.begins begun with ⟨id', bundle, d, rfl, stage, rfl⟩ | ⟨id', d, device, rfl, stage, rfl⟩
  · cases called
    simp only [operation, found, Option.map_some, stage]
  · cases called
    simp only [operation, found, Option.map_some, stage]

/-- A call that goes on serially keeps the order. -/
theorem InOrder.turn (order : InOrder c) (queued : Queued c) (called : a.call = some id)
    (found : c.sends.lookup id = some task) (rounds : Rounds c id task a round)
    (serial : Serial c a = true) : InOrder (Client.after id round) where
  begun := by
    change round.client.begun.Pairwise _
    rcases Rounds.entered rounds with ⟨same, -⟩ | ⟨id', d, device, rfl, stage, same, -⟩ |
      ⟨d, device, w, -, same, -⟩
    · exact same ▸ order.begun
    · have ahead : task.ahead d = true := ahead_iff.mpr (.inr (.inr (by rw [stage]; rfl)))
      rw [same]
      refine List.pairwise_append.mpr ⟨order.begun, List.pairwise_singleton _ _, ?_⟩
      intro b begun b' new peer recipient
      obtain rfl := List.mem_singleton.mp new
      exact queued.behind found ahead begun peer recipient
    · exact same ▸ order.begun
  written := by
    change round.client.written.Pairwise _
    rcases Rounds.entered rounds with ⟨-, same, -⟩ | ⟨id', d, device, rfl, -, -, same, -⟩ |
      ⟨d, device, w, stage, -, same, rfl, kept, rfl, -⟩
    · exact same ▸ order.written
    · exact same ▸ order.written
    · have ahead : task.ahead w.recipientId = true :=
        ahead_iff.mpr (.inr (.inr (by rw [stage]; rfl)))
      rw [same]
      refine List.pairwise_append.mpr ⟨order.written, List.pairwise_singleton _ _, ?_⟩
      intro w' before w'' new peer recipient
      obtain rfl := List.mem_singleton.mp new
      exact queued.behind found ahead (queued.written w' before) (peer.trans kept) recipient
  apart := by
    obtain ⟨rest, fewer, same⟩ := rounds.operations_after
    rw [same]
    cases begun : round.call.bind fun task' => task'.stage.operation with
    | none => exact order.apart.sublist fewer
    | some address =>
      have apart := apart_of_serial serial (Rounds.operation_begun rounds called found begun)
      exact List.nodup_cons.mpr ⟨fun inside => apart (fewer.subset inside),
        order.apart.sublist fewer⟩

theorem step_queued (numbered : Numbered c) (queued : Queued c) (serial : Serial c a = true)
    (moved : c.step a = some c') : Queued c' := by
  cases moves_of_step moved with
  | turns called found rounds => exact queued.turn numbered called found rounds serial
  | rejects =>
    exact ⟨fun b begun => Nat.lt_succ_of_lt (queued.called b begun), queued.passed,
      queued.encrypting, queued.written⟩
  | calls task stage =>
    constructor
    · exact fun b begun => Nat.lt_succ_of_lt (queued.called b begun)
    · intro b begun id task' earlier found peer
      have old : id ≠ c.calls := Nat.ne_of_lt (Nat.lt_trans earlier (queued.called b begun))
      rw [FinMap.lookup_insert_apply, if_neg old] at found
      exact queued.passed b begun id task' earlier found peer
    · intro id task' d device found encrypting
      rw [FinMap.lookup_insert_apply] at found
      split at found
      · cases found
        rcases stage with waits | ⟨waits, -⟩ <;> cases waits.symm.trans encrypting
      · exact queued.encrypting id task' d device found encrypting
    · exact queued.written
  | delivers env => exact ⟨queued.called, queued.passed, queued.encrypting, queued.written⟩
  | decrypts pending =>
    unfold Client.decrypted
    split <;>
      exact ⟨queued.called, queued.passed, queued.encrypting, queued.written⟩
  | reconnects => exact ⟨queued.called, queued.passed, queued.encrypting, queued.written⟩

theorem step_inOrder (order : InOrder c) (queued : Queued c) (serial : Serial c a = true)
    (moved : c.step a = some c') : InOrder c' := by
  cases moves_of_step moved with
  | turns called found rounds => exact order.turn queued called found rounds serial
  | rejects => exact ⟨order.begun, order.written, order.apart⟩
  | calls task stage =>
    refine ⟨order.begun, order.written, ?_⟩
    have idle : task.stage.operation = none := by
      rcases stage with waits | ⟨waits, -⟩ <;> rw [waits] <;> rfl
    unfold Client.operations
    dsimp only
    rw [FinMap.values_insert, List.filterMap_cons, idle]
    exact order.apart.sublist
      (((FinMap.values_erase_sublist c.sends c.calls).filterMap _).append_right _)
  | delivers env =>
    refine ⟨order.begun, order.written, ?_⟩
    have begins : operation c (.deliver env) = some (env.senderId, env.senderDevice) := rfl
    have apart := apart_of_serial serial begins
    have fewer : (c.sends.values.filterMap (fun task => task.stage.operation) ++
        (FinMap.values (c.inbound.erase c.frames)).map
          fun env => (env.senderId, env.senderDevice)).Sublist c.operations :=
      ((FinMap.values_erase_sublist c.inbound c.frames).map _).append_left _
    unfold Client.operations Client.deliver
    dsimp only
    rw [FinMap.values_insert, List.map_cons, List.nodup_middle]
    exact List.nodup_cons.mpr ⟨fun inside => apart (fewer.subset inside),
      order.apart.sublist fewer⟩
  | @decrypts env reply frame pending =>
    have fewer : (c.decrypted frame env reply).operations.Sublist c.operations := by
      unfold Client.decrypted
      split <;> exact ((FinMap.values_erase_sublist c.inbound frame).map _).append_left _
    have same : (c.decrypted frame env reply).begun = c.begun ∧
        (c.decrypted frame env reply).written = c.written := by
      unfold Client.decrypted
      split <;> exact ⟨rfl, rfl⟩
    exact ⟨same.1 ▸ order.begun, same.2 ▸ order.written, order.apart.sublist fewer⟩
  | reconnects => exact ⟨order.begun, order.written, order.apart⟩

theorem started_queued (started : client.start c) : Queued c := by
  subst started
  constructor
  · intro b begun
    cases begun
  · intro b begun
    cases begun
  · intro id task d device found
    cases found
  · intro w written
    cases written

theorem started_inOrder (started : client.start c) : InOrder c := by
  subst started
  exact ⟨.nil, .nil, .nil⟩

theorem reached_queued (reached : client.Reached (fun c a => Serial c a = true) c) : Queued c :=
  reached.invariant_under Queued (fun _ => reached_numbered) (fun _ => started_queued)
    fun _ _ _ numbered queued serial moved => step_queued numbered queued serial moved

/-- **Outbound order.** In every run in which no call overtakes an earlier one to the
peer and no crypto operation is begun for an address that has one in flight, whatever
the order in which device lists, bundles and encryptions are answered, the encryptions
and the envelopes for each device follow the calls of `sendText`. -/
theorem messages_leave_in_order (reached : client.Reached (fun c a => Serial c a = true) c) :
    InOrder c :=
  reached.invariant_under InOrder (fun _ => reached_queued) (fun _ => started_inOrder)
    fun _ _ _ queued order serial moved => step_inOrder order queued serial moved

/-- alice is connected and sends bob two texts, one after the other. -/
def twoTexts : List Action :=
  [ .resume "alice" 1, .connectRelay, .opened,
    .sendText "bob" "ring" (some "r0") "" 0, .sendText "bob" "ice" (some "r1") "" 0 ]

/-- Each call's answers come before the next call goes on. -/
def oneByOne : List Action := twoTexts ++
  [ .listed 0 (some ["bob"]) 1, .loop 0, .fetched 0 (some ⟨1, some "key"⟩), .established 0 true,
    .encrypt 0, .encrypted 0 true, .loop 0, .listed 1 (some ["bob"]) 1, .loop 1, .encrypt 1,
    .encrypted 1 true, .loop 1 ]

/-- The second call's bundle comes first; the first call's while the second establishes
its session. -/
def bundlesCross : List Action := twoTexts ++
  [ .listed 0 (some ["bob"]) 1, .loop 0, .listed 1 (some ["bob"]) 1, .loop 1,
    .fetched 1 (some ⟨1, some "key"⟩), .fetched 0 (some ⟨1, some "key"⟩) ]

/-- The second call is done before the first one goes on. -/
def secondIsFirst : List Action := bundlesCross ++
  [ .established 1 true, .encrypt 1, .encrypted 1 true, .established 0 true, .encrypt 0,
    .encrypted 0 true ]

/-- The call an envelope is from, and whom it is for. -/
def addressed (w : Written) : Nat × String × String := (w.call, w.peerUserId, w.recipientId)

/-- The connection, the envelopes, and the operations in flight. -/
structure Outbound where
  relay : Option Socket
  written : List (Nat × String × String)
  operations : List (String × Int)
  deriving DecidableEq

def outbound (c : Client) : Outbound := ⟨c.relay, c.written.map addressed, c.operations⟩

theorem texts_leave_in_order : ∃ c, client.Reached (fun c a => Serial c a = true) c ∧
    c.written.map addressed = [(0, "bob", "bob"), (1, "bob", "bob")] ∧
    InOrder c := by
  have observed : (client.checkedRun (fun c a => Serial c a = true) {} oneByOne).map outbound =
      some ⟨some ⟨0, .opened⟩, [(0, "bob", "bob"), (1, "bob", "bob")], []⟩ := by decide +kernel
  obtain ⟨c, reached, seen⟩ := Machine.reached_of_observed observed (.start rfl)
  obtain ⟨-, written, -⟩ : _ ∧ _ ∧ _ := by simpa only [outbound, Outbound.mk.injEq] using seen
  exact ⟨c, reached, written, messages_leave_in_order reached⟩

theorem second_text_leaves_first :
    (∃ c, client.Reachable c ∧ c.relay = some ⟨0, .opened⟩ ∧
      c.written.map addressed = [(1, "bob", "bob"), (0, "bob", "bob")] ∧
      ¬ InOrder c) ∧
    ∃ c, client.Reachable c ∧ c.relay = some ⟨0, .opened⟩ ∧
      c.operations = [("bob", 1), ("bob", 1)] ∧ ¬ InOrder c := by
  have sent : (client.run {} secondIsFirst).map outbound =
      some ⟨some ⟨0, .opened⟩, [(1, "bob", "bob"), (0, "bob", "bob")], []⟩ := by decide +kernel
  have crossed : (client.run {} bundlesCross).map outbound =
      some ⟨some ⟨0, .opened⟩, [], [("bob", 1), ("bob", 1)]⟩ := by decide +kernel
  constructor
  · obtain ⟨c, reachable, seen⟩ := Machine.reachable_of_observed sent rfl
    obtain ⟨relay, written, -⟩ : _ ∧ _ ∧ _ := by simpa only [outbound, Outbound.mk.injEq] using seen
    refine ⟨c, reachable, relay, written, fun order => ?_⟩
    have ordered : (c.written.map addressed).Pairwise fun earlier later =>
        earlier.2.1 = later.2.1 → earlier.2.2 = later.2.2 → earlier.1 ≤ later.1 :=
      List.pairwise_map.mpr order.written
    rw [written] at ordered
    revert ordered
    decide
  · obtain ⟨c, reachable, seen⟩ := Machine.reachable_of_observed crossed rfl
    obtain ⟨relay, -, operations⟩ : _ ∧ _ ∧ _ := by
      simpa only [outbound, Outbound.mk.injEq] using seen
    refine ⟨c, reachable, relay, operations, fun order => ?_⟩
    have apart := order.apart
    rw [operations] at apart
    revert apart
    decide

/-! ## Inbound -/

/-- The texts from a connection are handed out in the order of its frames. -/
def Arrived (c : Client) : Prop := c.surfaced.Pairwise fun earlier later =>
  earlier.connection = later.connection → earlier.frame < later.frame

/-- An envelope is decrypted once those of the frames before it on its connection have
been, or were refused. -/
def InTurn (c : Client) : Action → Bool
  | .decrypted frame (some _) => (c.inbound.lookup frame).all fun env =>
    c.inbound.entries.all fun other => other.2.connection ≠ env.connection || frame ≤ other.1
  | _ => true

theorem first_of_inTurn {frame frame' : Nat} {env env' : Inbound} {text : String}
    (in_turn : InTurn c (.decrypted frame (some text)) = true)
    (pending : c.inbound.lookup frame = some env) (pending' : c.inbound.lookup frame' = some env')
    (same : env'.connection = env.connection) : frame ≤ frame' := by
  simp only [InTurn, pending, Option.all_some, List.all_eq_true] at in_turn
  have first := in_turn ⟨frame', env'⟩ (AList.mem_lookup_iff.mp pending')
  simpa [same] using first

/-- The frames that wait are later than those of their connection that have surfaced. -/
structure Pending (c : Client) : Prop where
  known : ∀ frame env, c.inbound.lookup frame = some env → frame < c.frames
  surfaced : ∀ s ∈ c.surfaced, s.frame < c.frames
  later : ∀ s ∈ c.surfaced, ∀ frame env, c.inbound.lookup frame = some env →
    env.connection = s.connection → s.frame < frame

/-- An envelope that waits waited before, and is not the one that was decrypted. -/
theorem waits_after_decrypted {frame frame' : Nat} {env env' : Inbound} {reply : Option String}
    (waits : (c.decrypted frame env reply).inbound.lookup frame' = some env') :
    frame' ≠ frame ∧ c.inbound.lookup frame' = some env' := by
  have same : (c.decrypted frame env reply).inbound = c.inbound.erase frame := by
    unfold Client.decrypted
    split <;> rfl
  rw [same, FinMap.lookup_erase_apply] at waits
  split at waits
  · cases waits
  · next other => exact ⟨other, waits⟩

theorem Pending.decrypted {frame : Nat} {env : Inbound} {reply : Option String} (kept : Pending c)
    (pending : c.inbound.lookup frame = some env)
    (in_turn : InTurn c (.decrypted frame reply) = true) : Pending (c.decrypted frame env reply) := by
  have frames : (c.decrypted frame env reply).frames = c.frames := by
    unfold Client.decrypted
    split <;> rfl
  refine ⟨fun frame' env' waits => ?_, fun s surfaced => ?_, fun s surfaced frame' env' waits same => ?_⟩
  · rw [frames]
    exact kept.known frame' env' (waits_after_decrypted waits).2
  · rw [frames]
    cases reply with
    | none => exact kept.surfaced s surfaced
    | some text =>
      rcases List.mem_append.mp surfaced with before | new
      · exact kept.surfaced s before
      · obtain rfl := List.mem_singleton.mp new
        exact kept.known frame env pending
  · obtain ⟨other, waited⟩ := waits_after_decrypted waits
    cases reply with
    | none => exact kept.later s surfaced frame' env' waited same
    | some text =>
      rcases List.mem_append.mp surfaced with before | new
      · exact kept.later s before frame' env' waited same
      · obtain rfl := List.mem_singleton.mp new
        have first := first_of_inTurn in_turn pending waited same
        exact Nat.lt_of_le_of_ne first (Ne.symm other)

theorem step_pending (kept : Pending c) (in_turn : InTurn c a = true)
    (moved : c.step a = some c') : Pending c' := by
  cases moves_of_step moved with
  | turns called found rounds =>
    obtain ⟨-, -, inbound, frames, surfaced⟩ := rounds.keeps
    constructor <;> unfold Client.after <;> dsimp only
    · rw [inbound, frames]
      exact kept.known
    · rw [surfaced, frames]
      exact kept.surfaced
    · rw [surfaced, inbound]
      exact kept.later
  | delivers env =>
    refine ⟨fun frame env' waits => ?_, fun s surfaced => ?_, fun s surfaced frame env' waits same => ?_⟩
    · rw [Client.deliver, FinMap.lookup_insert_apply] at waits
      split at waits
      · next same => exact same ▸ Nat.lt_succ_self _
      · exact Nat.lt_succ_of_lt (kept.known frame env' waits)
    · exact Nat.lt_succ_of_lt (kept.surfaced s surfaced)
    · rw [Client.deliver, FinMap.lookup_insert_apply] at waits
      split at waits
      · next new => exact new ▸ kept.surfaced s surfaced
      · exact kept.later s surfaced frame env' waits same
  | decrypts pending => exact kept.decrypted pending in_turn
  | rejects | calls task stage | reconnects => exact ⟨kept.known, kept.surfaced, kept.later⟩

theorem step_arrived (arrived : Arrived c) (kept : Pending c) (moved : c.step a = some c') :
    Arrived c' := by
  cases moves_of_step moved with
  | turns called found rounds =>
    obtain ⟨-, -, -, -, surfaced⟩ := rounds.keeps
    unfold Arrived Client.after
    dsimp only
    rw [surfaced]
    exact arrived
  | @decrypts env reply frame pending =>
    cases reply with
    | none => exact arrived
    | some text =>
      refine List.pairwise_append.mpr ⟨arrived, List.pairwise_singleton _ _, ?_⟩
      intro s surfaced s' new same
      obtain rfl := List.mem_singleton.mp new
      exact kept.later s surfaced frame env pending same.symm
  | rejects | calls task stage | delivers env | reconnects => exact arrived

theorem started_pending (started : client.start c) : Pending c := by
  subst started
  constructor
  · intro frame env waits
    cases waits
  · intro s surfaced
    cases surfaced
  · intro s surfaced
    cases surfaced

theorem reached_pending (reached : client.Reached (fun c a => InTurn c a = true) c) : Pending c :=
  reached.invariant Pending (fun _ => started_pending)
    fun _ _ _ kept in_turn moved => step_pending kept in_turn moved

/-- **Inbound order.** In every run in which no envelope is decrypted while one of an
earlier frame of its connection waits, the texts from each connection are handed out in
the order in which their frames arrived. -/
theorem texts_surface_in_order (reached : client.Reached (fun c a => InTurn c a = true) c) :
    Arrived c :=
  reached.invariant_under Arrived (fun _ => reached_pending)
    (fun s started => by subst started; exact .nil)
    fun _ _ _ kept arrived _ moved => step_arrived arrived kept moved

/-- An envelope decrypted out of its turn leaves one behind whose text, if it has one,
is handed out too late. -/
theorem late_of_not_inTurn {frame : Nat} {text : String}
    (hasty : InTurn c (.decrypted frame (some text)) = false)
    (moved : c.step (.decrypted frame (some text)) = some c') :
    ∃ frame' c'', frame' < frame ∧ c'.step (.decrypted frame' (some text)) = some c'' ∧
      ¬ Arrived c'' := by
  obtain ⟨env, pending, rfl⟩ := Option.map_eq_some_iff.mp moved
  simp only [InTurn, pending, Option.all_some, List.all_eq_false] at hasty
  obtain ⟨⟨frame', env'⟩, waits, late⟩ := hasty
  simp only [ne_eq, decide_not, Bool.or_eq_true, Bool.not_eq_eq_eq_not, Bool.not_true,
    decide_eq_false_iff_not, decide_eq_true_eq, not_or, not_not, Nat.not_le] at late
  obtain ⟨same, earlier⟩ := late
  have waits' : (c.decrypted frame env (some text)).inbound.lookup frame' = some env' := by
    rw [show (c.decrypted frame env (some text)).inbound = c.inbound.erase frame from rfl,
      FinMap.lookup_erase_apply, if_neg (Nat.ne_of_lt earlier)]
    exact AList.mem_lookup_iff.mpr waits
  refine ⟨frame', (c.decrypted frame env (some text)).decrypted frame' env' (some text), earlier,
    Option.map_eq_some_iff.mpr ⟨env', waits', rfl⟩, fun arrived => ?_⟩
  have ordered := (List.pairwise_append.mp arrived).2.2
    ⟨env.connection, frame, env.senderId, text⟩
    (List.mem_append_right _ (List.mem_singleton_self _))
    ⟨env'.connection, frame', env'.senderId, text⟩ (List.mem_singleton_self _) same.symm
  exact absurd ordered (Nat.lt_asymm earlier)

/-- alice is connected and is delivered three envelopes of bob. -/
def threeFrames : List Action :=
  [ .resume "alice" 1, .connectRelay, .opened, .deliver ⟨0, "bob", 1⟩, .deliver ⟨0, "bob", 1⟩,
    .deliver ⟨0, "bob", 1⟩ ]

/-- The second envelope cannot be decrypted. -/
def inSuccession : List Action :=
  threeFrames ++ [ .decrypted 1 none, .decrypted 0 (some "one"), .decrypted 2 (some "three") ]

def secondAnswersFirst : List Action :=
  threeFrames ++ [ .decrypted 1 (some "two"), .decrypted 0 (some "one") ]

theorem texts_surface_in_succession : ∃ c, client.Reached (fun c a => InTurn c a = true) c ∧
    c.surfaced = [⟨0, 0, "bob", "one"⟩, ⟨0, 2, "bob", "three"⟩] ∧ Arrived c := by
  have observed : (client.checkedRun (fun c a => InTurn c a = true) {} inSuccession).map
      Client.surfaced = some [⟨0, 0, "bob", "one"⟩, ⟨0, 2, "bob", "three"⟩] := by decide +kernel
  obtain ⟨c, reached, surfaced⟩ := Machine.reached_of_observed observed (.start rfl)
  exact ⟨c, reached, surfaced, texts_surface_in_order reached⟩

theorem second_frame_surfaces_first : ∃ c, client.Reachable c ∧
    c.surfaced = [⟨0, 1, "bob", "two"⟩, ⟨0, 0, "bob", "one"⟩] ∧ ¬ Arrived c := by
  have observed : (client.run {} secondAnswersFirst).map Client.surfaced =
      some [⟨0, 1, "bob", "two"⟩, ⟨0, 0, "bob", "one"⟩] := by decide +kernel
  obtain ⟨c, reachable, surfaced⟩ := Machine.reachable_of_observed observed rfl
  refine ⟨c, reachable, surfaced, fun arrived => ?_⟩
  rw [Arrived, surfaced] at arrived
  revert arrived
  decide

end Hwfa.ClientOrdering
