import Hwfa.ClientPipeline

/-!
What a resolved `sendText` has done (`packages/client/src/client.ts`, `relay.ts`).

The loop over the devices catches whatever fails in a turn, that of the primary device
included, and the call resolves once the loop is through.  A step is `Spared` that does
not spend the last turn of the primary without an envelope; a resolved call of a run of
such steps has written one.
-/

namespace Hwfa.ClientSubmission

open Hwfa.Machines Hwfa.Maps Hwfa.ClientPipeline

/-- An envelope of the call for the peer's primary device, tagged with the ref, was
written to the relay socket. -/
def Submitted (c : Client) (id : Nat) (peerUserId ref : String) : Prop :=
  ∃ w ∈ c.written, w.call = id ∧ w.recipientId = peerUserId ∧ w.clientRef = some ref

/-- The calls that resolved were submitted. -/
def ResolvedSubmitted (c : Client) : Prop :=
  ∀ e ∈ c.ended, e.resolved = true → Submitted c e.call e.peerUserId e.ref

/-- The device whose turn in the loop ends in the step without an envelope. -/
def fails (c : Client) (task : Send) : Action → Option String
  | .loop _ =>
    match task.stage, task.devices with
    | .next, d :: _ => if some d = c.userId then some d else none
    | _, _ => none
  | .fetched _ none =>
    match task.stage with
    | .fetching d => some d
    | _ => none
  | .established _ false =>
    match task.stage with
    | .establishing d _ => some d
    | _ => none
  | .encrypted _ accepted =>
    match task.stage with
    | .encrypting d _ =>
      if accepted && c.relay.any fun socket => socket.readyState = .opened then none else some d
    | _ => none
  | _ => none

/-- The devices whose turn is still to come once the step is done. -/
def remaining (task : Send) : Action → List String
  | .loop _ => task.devices.tail
  | _ => task.devices

instance (c : Client) (id : Nat) (peerUserId ref : String) :
    Decidable (Submitted c id peerUserId ref) :=
  inferInstanceAs (Decidable (∃ w ∈ c.written,
    w.call = id ∧ w.recipientId = peerUserId ∧ w.clientRef = some ref))

/-- The turn of the primary does not end without an envelope, unless it comes again or
an envelope was written before. -/
def Spared (c : Client) (a : Action) : Prop :=
  ∀ id ∈ a.call, ∀ task ∈ c.sends.lookup id, fails c task a = some task.peerUserId →
    task.peerUserId ∈ remaining task a ∨ Submitted c id task.peerUserId task.ref

instance (c : Client) (a : Action) : Decidable (Spared c a) :=
  inferInstanceAs (Decidable (∀ id ∈ a.call, ∀ task ∈ c.sends.lookup id,
    fails c task a = some task.peerUserId →
      task.peerUserId ∈ remaining task a ∨ Submitted c id task.peerUserId task.ref))

variable {c c' : Client} {id : Nat} {task : Send} {a : Action} {round : Round}

theorem mem_devicesOf (peerUserId : String) (reply : Option (List String)) :
    peerUserId ∈ devicesOf peerUserId reply := by
  unfold devicesOf
  split
  · split
    · next inside => exact inside
    · exact List.mem_cons_self
  · exact List.mem_singleton_self _

/-- The envelopes written stay written, and a call writes for the devices it has ahead. -/
theorem Rounds.written_grows (rounds : Rounds c id task a round) :
    ∃ more, round.client.written = c.written ++ more ∧
      ∀ w ∈ more, w.call = id ∧ task.ahead w.recipientId = true := by
  cases rounds with
  | writes stage relay =>
    refine ⟨_, rfl, fun w new => ?_⟩
    obtain rfl := List.mem_singleton.mp new
    exact ⟨rfl, ahead_iff.mpr (.inr (.inr (by rw [stage]; rfl)))⟩
  | _ => exact ⟨[], (List.append_nil _).symm, fun w new => by cases new⟩

theorem Submitted.after {id' : Nat} {peerUserId ref : String}
    (submitted : Submitted c id' peerUserId ref) (rounds : Rounds c id task a round) :
    Submitted (Client.after id round) id' peerUserId ref := by
  obtain ⟨w, written, is_the_one⟩ := submitted
  obtain ⟨more, grown, -⟩ := Rounds.written_grows rounds
  refine ⟨w, ?_, is_the_one⟩
  change w ∈ round.client.written
  rw [grown]
  exact List.mem_append_left _ written

/-- A call ends when its loop is through, and goes on for the same peer otherwise. -/
theorem Rounds.ended_after (rounds : Rounds c id task a round) :
    (round.call = none ∧ task.stage = .next ∧ task.devices = [] ∧
      round.client.ended = c.ended ++ [⟨id, task.peerUserId, task.ref, true⟩]) ∨
    ∃ task', round.call = some task' ∧ task'.peerUserId = task.peerUserId ∧
      task'.ref = task.ref ∧ round.client.ended = c.ended := by
  cases rounds with
  | ends stage done => exact .inl ⟨rfl, stage, done, rfl⟩
  | _ => exact .inr ⟨_, rfl, rfl, rfl, rfl⟩

/-! ## The turn of the primary -/

/-- A call at a device has the primary ahead there, or among the devices left. -/
private theorem ahead_at {d p : String} (at_ : task.stage.device = some d)
    (ahead : task.ahead p = true) : p = d ∨ p ∈ task.devices := by
  rcases ahead_iff.mp ahead with listing | inside | here
  · rw [listing] at at_
    cases at_
  · exact .inr inside
  · exact .inl (Option.some.inj (here.symm.trans at_))

/-- A call at the head of the loop comes to the primary, or has it among the others. -/
private theorem ahead_head {d p : String} {rest : List String} (stage : task.stage = .next)
    (more : task.devices = d :: rest) (ahead : task.ahead p = true) : p = d ∨ p ∈ rest := by
  rcases ahead_iff.mp ahead with listing | inside | here
  · cases stage.symm.trans listing
  · rw [more] at inside
    exact List.mem_cons.mp inside
  · rw [stage] at here
    cases here

/-- A call that stays at its device has the same devices ahead. -/
private theorem ahead_stays_at {d p : String} {stage : Stage} (at_ : task.stage.device = some d)
    (stays : stage.device = some d) (ahead : task.ahead p = true) :
    ({ task with stage := stage } : Send).ahead p = true := by
  rcases ahead_at at_ ahead with rfl | inside
  · exact ahead_iff.mpr (.inr (.inr stays))
  · exact ahead_iff.mpr (.inr (.inl inside))

/-- A turn that fails has another one after it, or an envelope before it. -/
private theorem ahead_spared {d : String} {devices : List String}
    (called : a.call = some id) (found : c.sends.lookup id = some task) (spared : Spared c a)
    (rounds : Rounds c id task a round) (failed : fails c task a = some d)
    (rest : remaining task a = devices)
    (ahead : task.peerUserId = d ∨ task.peerUserId ∈ devices) :
    ({ task with devices := devices, stage := .next } : Send).ahead task.peerUserId = true ∨
      Submitted (Client.after id round) id task.peerUserId task.ref := by
  rcases ahead with same | inside
  · rcases spared id called task found (failed.trans (congrArg some same.symm)) with
      again | submitted
    · exact .inl (ahead_iff.mpr (.inr (.inl (rest ▸ again))))
    · exact .inr (submitted.after rounds)
  · exact .inl (ahead_iff.mpr (.inr (.inl inside)))

/-- While its turn is to come, the primary keeps it or its envelope is written. -/
theorem primary_after (called : a.call = some id) (found : c.sends.lookup id = some task)
    (spared : Spared c a) (rounds : Rounds c id task a round)
    (ahead : task.ahead task.peerUserId = true) : ∃ task', round.call = some task' ∧
      (task'.ahead task.peerUserId = true ∨
        Submitted (Client.after id round) id task.peerUserId task.ref) := by
  have turn := rounds
  cases rounds with
  | listed stage => exact ⟨_, rfl, .inl (ahead_iff.mpr (.inr (.inl (mem_devicesOf ..))))⟩
  | ends stage done =>
    rcases ahead_iff.mp ahead with listing | inside | here
    · cases stage.symm.trans listing
    · rw [done] at inside
      cases inside
    · rw [stage] at here
      cases here
  | skips stage more own =>
    refine ⟨_, rfl, ahead_spared called found spared turn ?_ ?_ (ahead_head stage more ahead)⟩
    · simp only [fails, stage, more]
      exact if_pos own
    · simp only [remaining, more, List.tail_cons]
  | fetches stage more | backfills stage more | knows stage more =>
    refine ⟨_, rfl, .inl (ahead_iff.mpr (.inr ?_))⟩
    rcases ahead_head stage more ahead with rfl | inside
    · exact .inr rfl
    · exact .inl inside
  | unbundled stage | refused stage =>
    have turns := ahead_at (by rw [stage]; rfl) ahead
    exact ⟨_, rfl, ahead_spared called found spared turn (by simp only [fails, stage]) rfl turns⟩
  | drops stage closed =>
    have turns := ahead_at (by rw [stage]; rfl) ahead
    refine ⟨_, rfl, ahead_spared called found spared turn ?_ rfl turns⟩
    simp only [fails, stage]
    refine if_neg fun sent => ?_
    obtain ⟨accepted, opened⟩ := (Bool.and_eq_true _ _).mp sent
    obtain ⟨socket, relay, state⟩ := Option.any_eq_true _ _ |>.mp opened
    refine closed accepted socket.number ?_
    rw [relay, ← of_decide_eq_true state]
  | writes stage relay =>
    refine ⟨_, rfl, ?_⟩
    rcases ahead_at (by rw [stage]; rfl) ahead with rfl | inside
    · exact .inr ⟨_, List.mem_append_right _ (List.mem_singleton_self _), rfl, rfl, if_pos rfl⟩
    · exact .inl (ahead_iff.mpr (.inr (.inl inside)))
  | establishes stage | backfilled stage | accepted stage | encrypts stage =>
    exact ⟨_, rfl, .inl (ahead_stays_at (by rw [stage]; rfl) rfl ahead)⟩

/-! ## Runs -/

/-- The primary of every call is in its list, has its turn ahead or its envelope written,
and the calls that resolved are submitted. -/
structure Kept (c : Client) : Prop where
  cached : ∀ p cached, c.peerDevices.lookup p = some cached → p ∈ cached.devices
  waiting : ∀ id task, c.sends.lookup id = some task →
    task.ahead task.peerUserId = true ∨ Submitted c id task.peerUserId task.ref
  resolved : ResolvedSubmitted c

theorem Rounds.cached_after (rounds : Rounds c id task a round)
    (cached : ∀ p cached, c.peerDevices.lookup p = some cached → p ∈ cached.devices) {p : String}
    {list : ClientSessions.CachedDevices} (found : round.client.peerDevices.lookup p = some list) :
    p ∈ list.devices := by
  cases rounds with
  | listed stage =>
    rw [Client.listed, FinMap.lookup_insert_apply] at found
    split at found
    · next same =>
      cases found
      rw [same]
      exact mem_devicesOf ..
    · exact cached p list found
  | _ => exact cached p list found

theorem Kept.turn (kept : Kept c) (called : a.call = some id)
    (found : c.sends.lookup id = some task) (rounds : Rounds c id task a round)
    (spared : Spared c a) : Kept (Client.after id round) where
  cached := fun p list found => Rounds.cached_after rounds kept.cached found
  waiting := by
    intro other task' found'
    rw [rounds.lookup_after] at found'
    split at found'
    · next same =>
      subst same
      rcases Rounds.ended_after rounds with ⟨ended, -⟩ | ⟨task'', goes, peer, ref, -⟩
      · cases ended.symm.trans found'
      · cases goes.symm.trans found'
        rw [peer, ref]
        rcases kept.waiting _ task found with ahead | submitted
        · obtain ⟨_, goes', turn⟩ := primary_after called found spared rounds ahead
          cases goes.symm.trans goes'
          exact turn
        · exact .inr (submitted.after rounds)
    · exact (kept.waiting other task' found').imp_right fun submitted => submitted.after rounds
  resolved := by
    intro e ended resolved
    change e ∈ round.client.ended at ended
    rcases Rounds.ended_after rounds with ⟨done, -, -, same⟩ | ⟨-, -, -, -, same⟩
    · rw [same, List.mem_append, List.mem_singleton] at ended
      rcases ended with before | rfl
      · exact (kept.resolved e before resolved).after rounds
      · rcases kept.waiting id task found with ahead | submitted
        · obtain ⟨_, goes, -⟩ := primary_after called found spared rounds ahead
          cases done.symm.trans goes
        · exact submitted.after rounds
    · exact (kept.resolved e (same ▸ ended) resolved).after rounds

theorem step_kept (kept : Kept c) (spared : Spared c a) (moved : c.step a = some c') :
    Kept c' := by
  cases moves_of_step moved with
  | turns called found rounds => exact kept.turn called found rounds spared
  | rejects =>
    refine ⟨kept.cached, kept.waiting, fun e ended resolved => ?_⟩
    rcases List.mem_append.mp ended with before | new
    · exact kept.resolved e before resolved
    · obtain rfl := List.mem_singleton.mp new
      cases resolved
  | calls task stage =>
    refine ⟨kept.cached, fun id task' found => ?_, kept.resolved⟩
    rw [FinMap.lookup_insert_apply] at found
    split at found
    · cases found
      rcases stage with listing | ⟨-, at_, cached⟩
      · exact .inl (ahead_iff.mpr (.inl listing))
      · exact .inl (ahead_iff.mpr (.inr (.inl (kept.cached _ _ cached))))
    · exact kept.waiting id task' found
  | @decrypts env reply frame pending =>
    cases reply with | none | some text => exact ⟨kept.cached, kept.waiting, kept.resolved⟩
  | delivers env | reconnects => exact ⟨kept.cached, kept.waiting, kept.resolved⟩

theorem started_kept (started : client.start c) : Kept c := by
  subst started
  constructor
  · intro p cached found
    cases found
  · intro id task found
    cases found
  · intro e ended
    cases ended

theorem reached_kept (reached : client.Reached Spared c) : Kept c :=
  reached.invariant Kept (fun _ => started_kept)
    fun _ _ _ kept spared moved => step_kept kept spared moved

/-- **A resolved send was submitted.** In every run in which no step ends the last turn of
a call's primary device without an envelope of the call for it, every call that resolved
has written an envelope for the primary, tagged with its ref, to the relay socket. -/
theorem resolved_send_was_submitted (reached : client.Reached Spared c) : ResolvedSubmitted c :=
  (reached_kept reached).resolved

/-! ## A turn that is lost -/

/-- The call has not written for the primary and will not: it is past it, or has
resolved. -/
def Lost (c : Client) (id : Nat) (peerUserId ref : String) : Prop :=
  ¬ Submitted c id peerUserId ref ∧ id < c.calls ∧
    ((∃ task, c.sends.lookup id = some task ∧ task.peerUserId = peerUserId ∧ task.ref = ref ∧
        task.ahead peerUserId = false) ∨
      c.sends.lookup id = none ∧ ⟨id, peerUserId, ref, true⟩ ∈ c.ended)

variable {peerUserId ref : String} {id' : Nat}

theorem Lost.turn (lost : Lost c id' peerUserId ref) (found : c.sends.lookup id = some task)
    (rounds : Rounds c id task a round) : Lost (Client.after id round) id' peerUserId ref := by
  obtain ⟨unsubmitted, called, state⟩ := lost
  have calls : (Client.after id round).calls = c.calls := rounds.keeps.2.1
  refine ⟨?_, calls ▸ called, ?_⟩
  · rintro ⟨w, written, call, recipient, tag⟩
    change w ∈ round.client.written at written
    obtain ⟨more, grown, writes⟩ := Rounds.written_grows rounds
    rw [grown, List.mem_append] at written
    rcases written with before | new
    · exact unsubmitted ⟨w, before, call, recipient, tag⟩
    · obtain ⟨from_id, ahead⟩ := writes w new
      have same : id' = id := call.symm.trans from_id
      subst same
      rcases state with ⟨task', found', -, -, past⟩ | ⟨gone, -⟩
      · cases found.symm.trans found'
        rw [recipient, past] at ahead
        cases ahead
      · cases found.symm.trans gone
  · change (∃ task, (Client.after id round).sends.lookup id' = some task ∧ _) ∨
      (Client.after id round).sends.lookup id' = none ∧ _ ∈ round.client.ended
    rw [rounds.lookup_after]
    by_cases same : id' = id
    · subst same
      rw [if_pos rfl]
      rcases state with ⟨task', found', rfl, rfl, past⟩ | ⟨gone, -⟩
      · cases found.symm.trans found'
        rcases Rounds.ended_after rounds with ⟨done, -, -, ended⟩ | ⟨task'', goes, peer, ref, -⟩
        · refine .inr ⟨done, ?_⟩
          rw [ended]
          exact List.mem_append_right _ (List.mem_singleton_self _)
        · refine .inl ⟨task'', goes, peer, ref, ?_⟩
          cases ahead : task''.ahead task.peerUserId with
          | false => rfl
          | true =>
            rw [(rounds.shrinks goes).2 _ ahead] at past
            cases past
      · cases found.symm.trans gone
    · rw [if_neg same]
      refine state.imp_right fun resolved => ⟨resolved.1, ?_⟩
      rcases Rounds.ended_after rounds with ⟨-, -, -, ended⟩ | ⟨-, -, -, -, ended⟩
      · rw [ended]
        exact List.mem_append_left _ resolved.2
      · exact ended ▸ resolved.2

theorem step_lost (lost : Lost c id' peerUserId ref) (moved : c.step a = some c') :
    Lost c' id' peerUserId ref := by
  cases moves_of_step moved with
  | turns called found rounds => exact lost.turn found rounds
  | rejects =>
    obtain ⟨unsubmitted, called, state⟩ := lost
    exact ⟨unsubmitted, Nat.lt_succ_of_lt called,
      state.imp_right fun resolved => ⟨resolved.1, List.mem_append_left _ resolved.2⟩⟩
  | calls task stage =>
    obtain ⟨unsubmitted, called, state⟩ := lost
    refine ⟨unsubmitted, Nat.lt_succ_of_lt called, ?_⟩
    dsimp only
    rw [FinMap.lookup_insert_apply, if_neg (Nat.ne_of_lt called)]
    exact state
  | @decrypts env reply frame pending => cases reply with | none | some text => exact lost
  | delivers env | reconnects => exact lost

/-- A turn that fails writes nothing and leaves the devices that remain. -/
theorem Rounds.failed_after (rounds : Rounds c id task a round) {d : String}
    (failed : fails c task a = some d) : round.client.written = c.written ∧
      round.call = some { task with devices := remaining task a, stage := .next } := by
  cases rounds with
  | skips stage more own => exact ⟨rfl, by rw [remaining, more, List.tail_cons]⟩
  | ends stage done => simp [fails, stage, done] at failed
  | fetches stage more other | backfills stage more other | knows stage more other =>
    simp [fails, stage, more, other] at failed
  | writes stage relay => simp [fails, stage, relay] at failed
  | @backfilled d device id' reply identity stage =>
    cases reply <;> simp [fails, stage] at failed
  | listed | establishes | accepted | encrypts => cases failed
  | unbundled | refused | drops => exact ⟨rfl, rfl⟩

/-- A call whose primary's last turn ended without an envelope writes none for it in any
run from there on, and still does not reject. -/
theorem unspared_send_is_lost (numbered : Numbered c) (moved : c.step a = some c')
    (called : a.call = some id) (found : c.sends.lookup id = some task)
    (failed : fails c task a = some task.peerUserId)
    (last : task.peerUserId ∉ remaining task a)
    (unsubmitted : ¬ Submitted c id task.peerUserId task.ref) {c'' : Client}
    (later : (client.startingAt c').Reachable c'') : Lost c'' id task.peerUserId task.ref := by
  have lost : Lost c' id task.peerUserId task.ref := by
    obtain ⟨round, rounds, rfl⟩ := turn_of_step called found moved
    obtain ⟨written, goes⟩ := Rounds.failed_after rounds failed
    refine ⟨?_, ?_, .inl ⟨{ task with devices := remaining task a, stage := .next }, ?_, rfl, rfl,
      ?_⟩⟩
    · rintro ⟨w, inside, is_the_one⟩
      change w ∈ round.client.written at inside
      exact unsubmitted ⟨w, written ▸ inside, is_the_one⟩
    · change id < round.client.calls
      rw [rounds.keeps.2.1]
      exact numbered id task found
    · rw [rounds.lookup_after, if_pos rfl, goes]
    · simp [Send.ahead, Stage.device, last]
  exact later.invariant (Lost · id task.peerUserId task.ref)
    (fun s started => by subst started; exact lost) fun _ _ _ lost _ moved => step_lost lost moved

/-- alice is connected and sends bob, who has a linked device, a text. -/
def textToBob : List Action :=
  [ .resume "alice" 1, .connectRelay, .opened, .sendText "bob" "hello" (some "r0") "" 0,
    .listed 0 (some ["bob", "bob-laptop"]) 1, .loop 0, .fetched 0 (some ⟨1, some "key"⟩),
    .established 0 true, .encrypt 0 ]

/-- Only the linked device's bundle cannot be fetched. -/
def laptopFails : List Action :=
  textToBob ++ [ .encrypted 0 true, .loop 0, .fetched 0 none, .loop 0 ]

/-- The connection is gone when the encryption for bob answers. -/
def connectionDrops : List Action :=
  textToBob ++ [ .handleSocketClosed, .encrypted 0 true, .loop 0, .fetched 0 none, .loop 0 ]

/-- The calls that ended, and for whom which refs were written. -/
def outcome (c : Client) : List Ended × List (Nat × String × Option String) :=
  (c.ended, c.written.map fun w => (w.call, w.recipientId, w.clientRef))

theorem text_to_bob_is_submitted : ∃ c, client.Reached Spared c ∧
    c.ended = [⟨0, "bob", "r0", true⟩] ∧ ResolvedSubmitted c := by
  have observed : (client.checkedRun Spared {} laptopFails).map outcome =
      some ([⟨0, "bob", "r0", true⟩], [(0, "bob", some "r0")]) := by decide +kernel
  obtain ⟨c, reached, seen⟩ := Machine.reached_of_observed observed (.start rfl)
  obtain ⟨ended, -⟩ : _ ∧ _ := by simpa only [outcome, Prod.mk.injEq] using seen
  exact ⟨c, reached, ended, resolved_send_was_submitted reached⟩

theorem dropped_text_resolves : ∃ c, client.Reachable c ∧
    c.ended = [⟨0, "bob", "r0", true⟩] ∧ c.written = [] ∧ ¬ ResolvedSubmitted c := by
  have observed : (client.run {} connectionDrops).map outcome =
      some ([⟨0, "bob", "r0", true⟩], []) := by decide +kernel
  obtain ⟨c, reachable, seen⟩ := Machine.reachable_of_observed observed rfl
  obtain ⟨ended, written⟩ : _ ∧ _ := by
    simpa only [outcome, Prod.mk.injEq, List.map_eq_nil_iff] using seen
  refine ⟨c, reachable, ended, written, fun submitted => ?_⟩
  obtain ⟨w, inside, -⟩ := submitted ⟨0, "bob", "r0", true⟩
    (by rw [ended]; exact List.mem_singleton_self _) rfl
  rw [written] at inside
  cases inside

end Hwfa.ClientSubmission
