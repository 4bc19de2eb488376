import Hwfa.RelayIdentity
import Hwfa.RelayRestart
import Hwfa.Retention

/-!
The queue of a recipient against all that was accepted for it.

`route` prunes the queue that earlier calls have pruned.  The relay runs with its
clock, restarts included; beside it `accepted` is a history of the envelopes that
`route` queued under a key since the queue was last drained, none left out, and
`prunedAt` of the reading of the clock at which the last of these calls pruned.  A
relay that was restarted has accepted what its file says.
-/

namespace Hwfa.RelayBacklog

open Hwfa.Machines Hwfa.RelayEnvelope Hwfa.RelayHub Hwfa.RelayProcess Hwfa.RelayIdentity
  Hwfa.RelayRestart Hwfa.Retention

structure Backlog where
  relay : Relay
  /-- the last reading of the clock -/
  now : Int
  accepted : String → List QueuedEnvelope
  prunedAt : String → Int
  /-- whether `route` has ever counted beyond the last envelope number -/
  wrapped : Bool

/-- The envelope that the relay queued when it handled a frame. -/
def queued (s s' : Relay) : Option Envelope :=
  if s'.accepted.length = s.accepted.length then none else s'.accepted.head?

/-- The queues a relay starts with, before they are pruned. -/
def loaded (s : Relay) (readable : Bool) : String → List QueuedEnvelope :=
  if s.hub.path = "" then fun _ => [] else (onFile (if readable then s.disk else none)).queue

/-- The histories after an event. -/
def Backlog.note (w : Backlog) (relay : Relay) : Event → Backlog
  | .act (.at c (.register ..)) =>
    match w.relay.clients c with
    | some cl => { w with accepted := Function.update w.accepted cl.routeKey [] }
    | none => w
  | .act (.at _ (.frame _ enqueuedAt now _)) =>
    match queued w.relay relay with
    | some env =>
      { w with
        accepted := Function.update w.accepted env.key (w.accepted env.key ++ [⟨env, enqueuedAt⟩])
        prunedAt := Function.update w.prunedAt env.key now
        wrapped := w.wrapped || relay.hub.nextID < w.relay.hub.nextID }
    | none => { w with wrapped := w.wrapped || relay.hub.nextID < w.relay.hub.nextID }
  | .restart _ readable now =>
    { w with accepted := loaded w.relay readable, prunedAt := fun _ => now }
  | _ => w

def Backlog.step (w : Backlog) (e : Event) : Option Backlog := do
  let now ← advance w.now (readings e)
  let relay ← service.step w.relay e
  some { w.note relay e with relay := relay, now := now }

def backlogged : Machine Backlog Event where
  start w := ∃ path pusher now, w =
    { relay := started (newHub path pusher) none
      now := now
      accepted := fun _ => []
      prunedAt := fun _ => now
      wrapped := false }
  step := Backlog.step

/-- Not older than the TTL. -/
def Recent (now : Int) (qe : QueuedEnvelope) : Prop := now - qe.enqueuedAt ≤ queueTTL

instance (now : Int) : DecidablePred (Recent now) := fun qe =>
  inferInstanceAs (Decidable (now - qe.enqueuedAt ≤ queueTTL))

variable {w w' : Backlog} {now later : Int} {q accepted : List QueuedEnvelope} {qe : QueuedEnvelope}
variable {m n : UInt64} {wrapped wrapped' : Bool} {disk : Option PersistedHub} {h : Hub}

/-- What pruning keeps, told by the age of the entries. -/
theorem kept_eq_retained (now : Int) (q : List QueuedEnvelope) :
    kept now q = retained maxQueuePerRecipient (Recent now) q := by
  have live : unexpired now q = q.filter (Recent now) := by
    refine List.filter_congr ?_
    intro qe _
    have same : ¬ Expired now qe ↔ Recent now qe := by
      unfold Expired Recent
      omega
    exact decide_eq_decide.mpr same
  unfold kept retained
  dsimp only
  rw [live, List.rtake]
  split
  · rfl
  · next fits => rw [Nat.sub_eq_zero_of_le (Nat.not_lt.mp fits), List.drop_zero]

/-! ### Entries in the order of their acceptance -/

/-- The entries were queued one after the other, up to now, and numbered so. -/
structure Told (wrapped : Bool) (n : UInt64) (now : Int) (q : List QueuedEnvelope) : Prop where
  ordered : q.Pairwise fun a b => a.enqueuedAt ≤ b.enqueuedAt
  past : ∀ qe ∈ q, qe.enqueuedAt ≤ now
  increasing : wrapped = false → q.Pairwise fun a b =>
    ∃ k m, k < m ∧ a.env.id = envelopeID k ∧ b.env.id = envelopeID m
  upto : wrapped = false → ∀ qe ∈ q, Upto n qe.env.id

theorem Told.nil : Told wrapped n now [] :=
  ⟨.nil, by simp, fun _ => .nil, by simp⟩

theorem Told.sublist (told : Told wrapped n now accepted) (part : q.Sublist accepted) :
    Told wrapped n now q where
  ordered := told.ordered.sublist part
  past qe member := told.past qe (part.mem member)
  increasing steady := (told.increasing steady).sublist part
  upto steady qe member := told.upto steady qe (part.mem member)

theorem Told.mono (told : Told wrapped m now q) (le : now ≤ later)
    (counted : wrapped' = false → wrapped = false ∧ m ≤ n) : Told wrapped' n later q where
  ordered := told.ordered
  past qe member := Int.le_trans (told.past qe member) le
  increasing steady := told.increasing (counted steady).1
  upto steady qe member := (told.upto (counted steady).1 qe member).mono (counted steady).2

/-- One more entry, with a number that was not given out before. -/
theorem Told.append (told : Told wrapped m now q) (le : now ≤ qe.enqueuedAt)
    (le' : qe.enqueuedAt ≤ later) (named : qe.env.id = envelopeID n)
    (counted : wrapped' = false → wrapped = false ∧ m < n) : Told wrapped' n later (q ++ [qe]) := by
  refine ⟨?_, ?_, ?_, ?_⟩
  · refine List.pairwise_append.mpr ⟨told.ordered, List.pairwise_singleton _ _, ?_⟩
    intro a before b new
    rw [List.mem_singleton.mp new]
    exact Int.le_trans (told.past a before) le
  · intro a member
    rcases List.mem_append.mp member with before | new
    · exact Int.le_trans (told.past a before) (Int.le_trans le le')
    · rw [List.mem_singleton.mp new]
      exact le'
  · intro steady
    obtain ⟨was, lt⟩ := counted steady
    refine List.pairwise_append.mpr ⟨told.increasing was, List.pairwise_singleton _ _, ?_⟩
    intro a before b new
    rw [List.mem_singleton.mp new]
    obtain ⟨k, below, same⟩ := told.upto was a before
    exact ⟨k, n, UInt64.lt_of_le_of_lt below lt, same, named⟩
  · intro steady a member
    obtain ⟨was, lt⟩ := counted steady
    rcases List.mem_append.mp member with before | new
    · exact (told.upto was a before).mono (UInt64.le_of_lt lt)
    · rw [List.mem_singleton.mp new]
      exact ⟨n, UInt64.le_refl n, named⟩

/-- No two entries have one id, unless the numbers have begun again. -/
theorem Told.nodup (told : Told false n now q) : (q.map (·.env.id)).Nodup := by
  rw [List.Nodup, List.pairwise_map]
  refine (told.increasing rfl).imp ?_
  rintro a b ⟨k, m, lt, first, second⟩ same
  rw [first, second] at same
  rw [envelopeID_injective same] at lt
  exact UInt64.lt_irrefl m lt

/-- An entry counts no longer than those that were queued behind it. -/
theorem Told.lasts (told : Told wrapped n now q) (later : Int) :
    q.Pairwise fun a b => Recent later a → Recent later b := by
  refine told.ordered.imp ?_
  intro a b le recent
  unfold Recent at recent ⊢
  omega

theorem Recent.earlier (le : now ≤ later) (recent : Recent later qe) : Recent now qe := by
  unfold Recent at recent ⊢
  omega

/-! ### What an event does -/

/-- The queue under every key is what is left of what was accepted for it, and so was
the queue on the file. -/
structure Pruned (w : Backlog) : Prop where
  early : ∀ key, w.prunedAt key ≤ w.now
  told : ∀ key, Told w.wrapped w.relay.hub.nextID w.now (w.accepted key)
  filed : ∀ key, Told w.wrapped (onFile w.relay.disk).nextID w.now ((onFile w.relay.disk).queue key)
  queue : ∀ key, w.relay.hub.queue key =
    retained maxQueuePerRecipient (Recent (w.prunedAt key)) (w.accepted key)

/-- The file after it may have been written. -/
theorem filed_of_persisted (filed : ∀ key, Told wrapped (onFile disk).nextID now ((onFile disk).queue key))
    (told : ∀ key, Told wrapped h.nextID now (h.queue key)) (wrote : Bool) (key : String) :
    Told wrapped (onFile (h.persistLocked wrote disk)).nextID now
      ((onFile (h.persistLocked wrote disk)).queue key) := by
  rcases persistLocked_cases h wrote disk with same | written
  · rw [same]
    exact filed key
  · rw [written]
    exact told key

/-- Time passes, and nothing happens to the queues. -/
theorem Pruned.frame (pruned : Pruned w) {relay : Relay} (le : w.now ≤ later)
    (nextID : relay.hub.nextID = w.relay.hub.nextID) (queue : relay.hub.queue = w.relay.hub.queue)
    (disk : relay.disk = w.relay.disk) (calm : wrapped = false → w.wrapped = false) :
    Pruned { w with relay := relay, now := later, wrapped := wrapped } := by
  refine ⟨fun key => Int.le_trans (pruned.early key) le, ?_, ?_, ?_⟩
  · intro key
    dsimp only
    rw [nextID]
    exact (pruned.told key).mono le fun steady => ⟨calm steady, UInt64.le_refl _⟩
  · intro key
    dsimp only
    rw [disk]
    exact (pruned.filed key).mono le fun steady => ⟨calm steady, UInt64.le_refl _⟩
  · intro key
    dsimp only
    rw [queue]
    exact pruned.queue key

/-- What is queued was accepted. -/
theorem Pruned.inMemory (pruned : Pruned w) (key : String) :
    Told w.wrapped w.relay.hub.nextID w.now (w.relay.hub.queue key) := by
  rw [pruned.queue key]
  exact (pruned.told key).sublist retained_sublist

/-- `register` drains a queue. -/
theorem Pruned.register (pruned : Pruned w) (c : ConnId) (key : String) (le : w.now ≤ later)
    (wrote : Bool) {relay : Relay}
    (hub : relay.hub = (w.relay.hub.register c key later wrote w.relay.disk).1)
    (disk : relay.disk = (w.relay.hub.register c key later wrote w.relay.disk).2.1) :
    Pruned { w with
      relay := relay, now := later, accepted := Function.update w.accepted key [] } := by
  obtain ⟨taken, -⟩ := register_eq w.relay.hub c key later wrote w.relay.disk
  have still {n : UInt64} {q : List QueuedEnvelope} (told : Told w.wrapped n w.now q) :
      Told w.wrapped n later q := told.mono le fun steady => ⟨steady, UInt64.le_refl _⟩
  have drained {n : UInt64} {q : String → List QueuedEnvelope} (k : String)
      (told : Told w.wrapped n w.now (q k)) : Told w.wrapped n later (Function.update q key [] k) := by
    rw [Function.update_apply]
    split
    · exact .nil
    · exact still told
  refine ⟨fun k => Int.le_trans (pruned.early k) le, ?_, ?_, ?_⟩
  · intro k
    dsimp only
    rw [hub, taken]
    exact drained k (pruned.told k)
  · intro k
    dsimp only
    rw [disk]
    rcases register_disk w.relay.hub c key later wrote w.relay.disk with same | written
    · rw [same]
      exact still (pruned.filed k)
    · rw [written]
      exact drained k (pruned.inMemory k)
  · intro k
    dsimp only
    rw [hub, taken]
    dsimp only
    rw [Function.update_apply, Function.update_apply]
    split
    · exact retained_nil.symm
    · exact pruned.queue k

/-- `route` to a connected recipient counts, and may write the file. -/
theorem Pruned.count (pruned : Pruned w) (le : w.now ≤ later) (wrote : Bool) {relay : Relay}
    (hub : relay.hub = w.relay.hub.count)
    (disk : relay.disk = w.relay.hub.count.persistLocked wrote w.relay.disk)
    (counted : wrapped = false → w.wrapped = false ∧ w.relay.hub.nextID ≤ w.relay.hub.count.nextID) :
    Pruned { w with relay := relay, now := later, wrapped := wrapped } := by
  refine ⟨fun key => Int.le_trans (pruned.early key) le, ?_, ?_, ?_⟩
  · intro key
    dsimp only
    rw [hub]
    exact (pruned.told key).mono le counted
  · intro key
    dsimp only
    rw [disk]
    refine filed_of_persisted ?_ ?_ wrote key
    · intro k
      exact (pruned.filed k).mono le fun steady => ⟨(counted steady).1, UInt64.le_refl _⟩
    · intro k
      exact (pruned.inMemory k).mono le counted
  · intro key
    dsimp only
    rw [hub]
    exact pruned.queue key

/-- What has been accepted when an envelope is queued. -/
theorem Pruned.told_enqueue (pruned : Pruned w) (env : Envelope) {enqueuedAt : Int}
    (le : w.now ≤ enqueuedAt) (le' : enqueuedAt ≤ later)
    (counted : wrapped = false → w.wrapped = false ∧ w.relay.hub.nextID < w.relay.hub.count.nextID)
    (key : String) : Told wrapped w.relay.hub.count.nextID later
      (Function.update w.accepted env.key
        (w.accepted env.key ++ [⟨w.relay.hub.count.stamp env, enqueuedAt⟩]) key) := by
  rw [Function.update_apply]
  split
  · exact (pruned.told env.key).append le le' (stamp_id w.relay.hub env) counted
  · apply (pruned.told key).mono (Int.le_trans le le')
    exact fun steady => ⟨(counted steady).1, UInt64.le_of_lt (counted steady).2⟩

/-- To prune what was pruned before, with the new envelope, is to prune all that was
accepted. -/
theorem Pruned.queue_enqueue (pruned : Pruned w) (env : Envelope) (enqueuedAt : Int)
    (le : w.now ≤ later) (key : String) : (w.relay.hub.enqueue env enqueuedAt later).queue key =
      retained maxQueuePerRecipient (Recent (Function.update w.prunedAt env.key later key))
        (Function.update w.accepted env.key
          (w.accepted env.key ++ [⟨w.relay.hub.count.stamp env, enqueuedAt⟩]) key) := by
  unfold Hub.enqueue
  dsimp only
  by_cases own : key = env.key
  · subst own
    rw [Function.update_self, Function.update_self, Function.update_self, kept_eq_retained,
      pruned.queue]
    refine retained_retained_append ?_ ((pruned.told _).lasts later)
    exact fun qe _ recent => recent.earlier (Int.le_trans (pruned.early _) le)
  · rw [Function.update_of_ne own, Function.update_of_ne own, Function.update_of_ne own]
    exact pruned.queue key

/-- `route` to an offline recipient. -/
theorem Pruned.enqueue (pruned : Pruned w) (env : Envelope) {enqueuedAt : Int}
    (le : w.now ≤ enqueuedAt) (le' : enqueuedAt ≤ later) (wrote : Bool) {relay : Relay}
    (hub : relay.hub = w.relay.hub.enqueue env enqueuedAt later)
    (disk : relay.disk = (w.relay.hub.enqueue env enqueuedAt later).persistLocked wrote w.relay.disk)
    (counted : wrapped = false → w.wrapped = false ∧ w.relay.hub.nextID < w.relay.hub.count.nextID) :
    Pruned
      { relay := relay
        now := later
        accepted := Function.update w.accepted env.key
          (w.accepted env.key ++ [⟨w.relay.hub.count.stamp env, enqueuedAt⟩])
        prunedAt := Function.update w.prunedAt env.key later
        wrapped := wrapped } := by
  have through := Int.le_trans le le'
  have told := pruned.told_enqueue env le le' counted
  have queue := pruned.queue_enqueue env enqueuedAt through
  refine ⟨?_, ?_, ?_, ?_⟩
  · intro key
    dsimp only
    rw [Function.update_apply]
    split
    · exact Int.le_refl _
    · exact Int.le_trans (pruned.early key) through
  · intro key
    dsimp only
    rw [hub]
    exact told key
  · intro key
    dsimp only
    rw [disk]
    refine filed_of_persisted ?_ ?_ wrote key
    · intro k
      exact (pruned.filed k).mono through fun steady => ⟨(counted steady).1, UInt64.le_refl _⟩
    · intro k
      rw [queue k]
      exact (told k).sublist retained_sublist
  · intro key
    dsimp only
    rw [hub]
    exact queue key

/-- A restart begins with what the file says, pruned. -/
theorem Pruned.restart (pruned : Pruned w) (pusher readable : Bool) (le : w.now ≤ later)
    {relay : Relay}
    (hub : relay.hub = boot w.relay.hub.path pusher (if readable then w.relay.disk else none) later)
    (disk : relay.disk = w.relay.disk) :
    Pruned { w with
      relay := relay, now := later, accepted := loaded w.relay readable, prunedAt := fun _ => later } := by
  have still {n : UInt64} {q : List QueuedEnvelope} (told : Told w.wrapped n w.now q) :
      Told w.wrapped n later q := told.mono le fun steady => ⟨steady, UInt64.le_refl _⟩
  have fresh (key : String) : Told w.wrapped relay.hub.nextID later (loaded w.relay readable key) ∧
      relay.hub.queue key =
        retained maxQueuePerRecipient (Recent later) (loaded w.relay readable key) := by
    by_cases persistent : w.relay.hub.path = ""
    · rw [hub, loaded, if_pos persistent, boot, if_pos persistent]
      exact ⟨.nil, retained_nil.symm⟩
    · obtain ⟨-, nextID, queue⟩ := boot_onFile persistent pusher
        (if readable then w.relay.disk else none) later
      rw [hub, nextID, queue, kept_eq_retained, loaded, if_neg persistent]
      refine ⟨?_, rfl⟩
      cases readable with
      | true => exact still (pruned.filed key)
      | false => exact .nil
  refine ⟨fun _ => Int.le_refl _, fun key => (fresh key).1, ?_, fun key => (fresh key).2⟩
  intro key
  dsimp only
  rw [disk]
  exact still (pruned.filed key)

theorem count_nextID_lt (calm : ¬ h.count.nextID < h.nextID) : h.nextID < h.count.nextID := by
  have bound := h.nextID.toNat_lt
  rw [UInt64.lt_iff_toNat_lt, Hub.count, UInt64.toNat_add, UInt64.toNat_one] at calm ⊢
  omega

theorem le_of_advance_pair {first second : Int} (advanced : advance now [first, second] = some later) :
    now ≤ first ∧ first ≤ later ∧ later = second := by
  simp only [advance, Option.ite_none_right_eq_some, Option.some.injEq] at advanced
  obtain ⟨le, le', rfl⟩ := advanced
  exact ⟨le, le', rfl⟩

section

variable {relay : Relay} {c : ConnId} {msg : Option RelayMessage} {enqueuedAt reading : Int} {wrote : Bool}

/-- A frame that queues nothing. -/
theorem note_idle (same : relay.accepted = w.relay.accepted) :
    w.note relay (.act (.at c (.frame msg enqueuedAt reading wrote))) =
      { w with wrapped := w.wrapped || relay.hub.nextID < w.relay.hub.nextID } := by
  have nothing : queued w.relay relay = none := by
    unfold queued
    rw [same, if_pos rfl]
  unfold Backlog.note
  rw [nothing]

/-- A frame whose envelope is queued. -/
theorem note_queued {env : Envelope} (new : relay.accepted = env :: w.relay.accepted) :
    w.note relay (.act (.at c (.frame msg enqueuedAt reading wrote))) =
      { w with
        accepted := Function.update w.accepted env.key (w.accepted env.key ++ [⟨env, enqueuedAt⟩])
        prunedAt := Function.update w.prunedAt env.key reading
        wrapped := w.wrapped || relay.hub.nextID < w.relay.hub.nextID } := by
  have one : queued w.relay relay = some env := by
    unfold queued
    rw [new, List.length_cons, if_neg (Nat.succ_ne_self _)]
    rfl
  unfold Backlog.note
  rw [one]

theorem Pruned.idle (pruned : Pruned w) (le : w.now ≤ later)
    (nextID : relay.hub.nextID = w.relay.hub.nextID) (queue : relay.hub.queue = w.relay.hub.queue)
    (disk : relay.disk = w.relay.disk) (same : relay.accepted = w.relay.accepted) :
    Pruned { w.note relay (.act (.at c (.frame msg enqueuedAt reading wrote))) with
      relay := relay, now := later } := by
  rw [note_idle same]
  exact pruned.frame le nextID queue disk fun steady => (Bool.or_eq_false_iff.mp steady).1

theorem Pruned.routedLive (pruned : Pruned w) (le : w.now ≤ later) (hub : relay.hub = w.relay.hub.count)
    (disk : relay.disk = w.relay.hub.count.persistLocked wrote w.relay.disk)
    (same : relay.accepted = w.relay.accepted) :
    Pruned { w.note relay (.act (.at c (.frame msg enqueuedAt reading wrote))) with
      relay := relay, now := later } := by
  rw [note_idle same]
  refine pruned.count le wrote hub disk ?_
  intro steady
  obtain ⟨was, calm⟩ := Bool.or_eq_false_iff.mp steady
  rw [hub] at calm
  exact ⟨was, UInt64.le_of_lt (count_nextID_lt (of_decide_eq_false calm))⟩

theorem Pruned.routedOffline (pruned : Pruned w) {env : Envelope} (le : w.now ≤ enqueuedAt)
    (le' : enqueuedAt ≤ reading) (hub : relay.hub = w.relay.hub.enqueue env enqueuedAt reading)
    (disk : relay.disk = (w.relay.hub.enqueue env enqueuedAt reading).persistLocked wrote w.relay.disk)
    (new : relay.accepted = w.relay.hub.count.stamp env :: w.relay.accepted) :
    Pruned { w.note relay (.act (.at c (.frame msg enqueuedAt reading wrote))) with
      relay := relay, now := reading } := by
  rw [note_queued new]
  refine pruned.enqueue env le le' wrote hub disk ?_
  intro steady
  obtain ⟨was, calm⟩ := Bool.or_eq_false_iff.mp steady
  rw [hub] at calm
  exact ⟨was, count_nextID_lt (of_decide_eq_false calm)⟩

end

/-- An action of the relay keeps every queue what is left of what was accepted. -/
theorem Pruned.act (pruned : Pruned w) {a : Action} {relay : Relay} (moved : w.relay.step a = some relay)
    (advanced : advance w.now (readings (.act a)) = some later) :
    Pruned { w.note relay (.act a) with relay := relay, now := later } := by
  have le := le_of_advance advanced
  have apart {s' : Relay} (hub : s'.hub = w.relay.hub) (disk : s'.disk = w.relay.disk) :
      Pruned { w with relay := s', now := later } :=
    pruned.frame le (by rw [hub]) (by rw [hub]) disk id
  cases step_moves moved with
  | connect | startWriter | take | write | writeError | drained | readError
  | closeOut | closeTwice | closeConn | expire | flushPanic | sendLivePanic | ackPanic
  | forwardPanic => exact apart rfl rfl
  | flush _ _ sent | ack _ _ _ sent | forward _ _ sent =>
    obtain ⟨hub, disk, -⟩ := send_frame sent
    exact apart hub disk
  | sendLive _ _ sent =>
    obtain ⟨hub, disk, -⟩ := send_frame sent
    exact apart hub disk
  | unregister =>
    exact pruned.frame le (unregister_nextID ..) (unregister_queue ..) rfl id
  | register found =>
    obtain ⟨le, rfl⟩ := advance_one advanced
    unfold Backlog.note
    dsimp only
    rw [found]
    exact pruned.register _ _ le _ rfl rfl
  | ignore | registerPush | receipt => exact pruned.idle le rfl rfl rfl rfl
  | routeLive => exact pruned.routedLive le rfl rfl rfl
  | routeOffline =>
    obtain ⟨before, after, rfl⟩ := le_of_advance_pair advanced
    exact pruned.routedOffline before after rfl rfl rfl

theorem step_pruned {e : Event} (pruned : Pruned w) (moved : w.step e = some w') : Pruned w' := by
  simp only [Backlog.step, Option.bind_eq_bind, Option.bind_eq_some_iff] at moved
  obtain ⟨now, advanced, relay, stepped, result⟩ := moved
  cases result
  cases e with
  | act a => exact pruned.act stepped advanced
  | restart pusher readable reading =>
    cases stepped
    obtain ⟨le, rfl⟩ := advance_one advanced
    exact pruned.restart pusher readable le rfl rfl

theorem reached_pruned (reachable : backlogged.Reachable w) : Pruned w := by
  refine reachable.invariant Pruned ?_ fun _ _ _ pruned _ moved => step_pruned pruned moved
  rintro w ⟨path, pusher, now, rfl⟩
  exact ⟨fun _ => Int.le_refl _, fun _ => .nil, fun _ => .nil, fun _ => retained_nil.symm⟩

/-- **Pruning as the queue grows is pruning once.** In every run, whoever routes and
connects in between and whenever the relay restarts, with a clock that does not go
backwards: the queue of every recipient is what was accepted for it since the last
drain, in that order, without what was older than the TTL when `route` last queued for
it, and of the rest the newest `maxQueuePerRecipient`.  So it is never longer than that;
an entry that had not expired is in it, before the newer ones, while fewer than
`maxQueuePerRecipient` newer ones are; and no envelope is in it twice, unless the
relay has used up all envelope numbers. -/
theorem queue_is_retained_backlog (reachable : backlogged.Reachable w) (key : String) :
    w.relay.hub.queue key =
        ((w.accepted key).filter (Recent (w.prunedAt key))).rtake maxQueuePerRecipient ∧
      (w.relay.hub.queue key).length ≤ maxQueuePerRecipient ∧
      (∀ older qe newer, w.accepted key = older ++ qe :: newer → Recent (w.prunedAt key) qe →
        ((newer.filter (Recent (w.prunedAt key))).rtake maxQueuePerRecipient).length <
            maxQueuePerRecipient →
          ∃ front, w.relay.hub.queue key =
            front ++ qe :: (newer.filter (Recent (w.prunedAt key))).rtake maxQueuePerRecipient) ∧
      (w.wrapped = false → ((w.relay.hub.queue key).map (·.env.id)).Nodup) := by
  have pruned := reached_pruned reachable
  have queue := pruned.queue key
  refine ⟨queue, ?_, ?_, ?_⟩
  · rw [queue]
    exact length_retained_le
  · intro older qe newer split recent room
    rw [queue, split]
    exact retained_append_cons recent room
  · intro steady
    have told := pruned.inMemory key
    rw [steady] at told
    exact told.nodup

/-- Three notes for bob: the second when the first is just as old as the TTL, the third
when it is older. -/
def threeNotes : List Event :=
  [ .act (.connect "alice" 1), .act (.at 0 (.register 0 true)), .act (.at 0 .startWriter),
    .act (.at 0 (.frame (some noteToBob) 1 1 true)), .act (.at 0 (.ack 1)),
    .act (.at 0 (.frame (some noteToBob) (queueTTL + 1) (queueTTL + 1) true)), .act (.at 0 (.ack 2)),
    .act (.at 0 (.frame (some noteToBob) (queueTTL + 2) (queueTTL + 2) true)) ]

/-- Bob's queue and all that was accepted for him. -/
def lookAtBob (w : Backlog) : List String × List String × Bool :=
  ((w.relay.hub.queue "bob:1").map (·.env.id), (w.accepted "bob:1").map (·.env.id), w.wrapped)

theorem first_note_expires : ∃ w, backlogged.Reachable w ∧
    lookAtBob w = (["env-2", "env-3"], ["env-1", "env-2", "env-3"], false) ∧
    w.relay.hub.queue "bob:1" = ((w.accepted "bob:1").filter
      (Recent (w.prunedAt "bob:1"))).rtake maxQueuePerRecipient := by
  have observed : (backlogged.run
      { relay := started (newHub "" false) none
        now := 0
        accepted := fun _ => []
        prunedAt := fun _ => 0
        wrapped := false } threeNotes).map lookAtBob =
      some (["env-2", "env-3"], ["env-1", "env-2", "env-3"], false) := by decide +kernel
  obtain ⟨w, reachable, seen⟩ := Machine.reachable_of_observed observed ⟨"", false, 0, rfl⟩
  exact ⟨w, reachable, seen, (queue_is_retained_backlog reachable "bob:1").1⟩

end Hwfa.RelayBacklog
