import Hwfa.RelayProcess

/-!
What a relay that is restarted has in its queues.

The memory and the file differ: `register` prunes a queue that has only expired
entries without writing the file, `load` prunes every queue and writes nothing,
and what `route` writes is the pruned queue.  What they always agree on is
`unexpired` at any time that is not yet past (`Mirrored`), and this is what the
next process reads.

The relay runs with the last reading of its clock, which does not go backwards.
-/

namespace Hwfa.RelayRestart

open Hwfa.Machines Hwfa.RelayHub Hwfa.RelayProcess

/-! ## Pruning at two times -/

variable {now later : Int} {q : List QueuedEnvelope}

/-- An entry that has expired stays expired. -/
theorem Expired.mono {qe : QueuedEnvelope} (le : now ≤ later) (old : Expired now qe) :
    Expired later qe := by
  unfold Expired at old ⊢
  omega

/-- Pruning first at an earlier time makes no difference. -/
theorem unexpired_unexpired (le : now ≤ later) :
    unexpired later (unexpired now q) = unexpired later q := by
  unfold unexpired
  rw [List.filter_filter]
  refine List.filter_congr fun qe _ => ?_
  by_cases old : Expired now qe
  · simp [old, Expired.mono le old]
  · simp [old]

theorem unexpired_of_kept_nil (empty : kept now q = []) : unexpired now q = [] := by
  unfold kept at empty
  dsimp only at empty
  split at empty
  · next full =>
    rw [List.drop_eq_nil_iff] at empty
    unfold maxQueuePerRecipient at full empty
    omega
  · exact empty

/-- A queue within the cap only loses what has expired. -/
theorem kept_eq_unexpired (short : q.length ≤ maxQueuePerRecipient) :
    kept now q = unexpired now q := by
  have fewer : (unexpired now q).length ≤ q.length := List.length_filter_le _ _
  unfold kept
  dsimp only
  rw [if_neg (by omega)]

theorem length_kept_le (now : Int) (q : List QueuedEnvelope) :
    (kept now q).length ≤ maxQueuePerRecipient := by
  unfold kept
  dsimp only
  split
  · rw [List.length_drop]
    omega
  · omega

/-! ## The relay with its clock -/

structure Clocked where
  relay : Relay
  /-- the last reading of the clock -/
  now : Int

/-- The readings of the clock that decide what is queued and pruned. -/
def readings : Event → List Int
  | .act (.at _ (.register now _)) => [now]
  | .act (.at _ (.frame _ enqueuedAt now _)) => [enqueuedAt, now]
  | .restart _ _ now => [now]
  | _ => []

/-- The clock after the readings, if none of them is earlier than the one before. -/
def advance : Int → List Int → Option Int
  | now, [] => some now
  | now, reading :: rest => if now ≤ reading then advance reading rest else none

def Clocked.step (s : Clocked) (e : Event) : Option Clocked := do
  let now ← advance s.now (readings e)
  let relay ← service.step s.relay e
  some ⟨relay, now⟩

/-- The runs of a relay that has a file. -/
def clocked : Machine Clocked Event where
  start s := ∃ path pusher, path ≠ "" ∧ s.relay = started (newHub path pusher) none
  step := Clocked.step

/-- Every write of the file goes through, and a restart can read it. -/
def Written (_ : Clocked) : Event → Prop
  | .act (.at _ (.register _ wrote)) => wrote = true
  | .act (.at _ (.frame _ _ _ wrote)) => wrote = true
  | .restart _ readable _ => readable = true
  | _ => True

instance (s : Clocked) (e : Event) : Decidable (Written s e) := by
  unfold Written
  split <;> infer_instance

/-- What the file says; a file that does not exist says that nothing has happened. -/
def onFile (disk : Option PersistedHub) : PersistedHub := disk.getD ⟨0, fun _ => []⟩

/-- `NewPersistentHub` prunes what the file says. -/
theorem boot_onFile {path : String} (persistent : path ≠ "") (pusher : Bool)
    (disk : Option PersistedHub) (now : Int) :
    (boot path pusher disk now).path = path ∧
      (boot path pusher disk now).nextID = (onFile disk).nextID ∧
      ∀ key, (boot path pusher disk now).queue key = kept now ((onFile disk).queue key) := by
  unfold boot
  rw [if_neg persistent]
  cases disk with
  | none => exact ⟨rfl, rfl, fun _ => rfl⟩
  | some p => exact ⟨rfl, rfl, fun _ => rfl⟩

/-- The queues of the file and of the memory are within the cap and have the same
entries at every time from `now` on. -/
structure Mirrored (h : Hub) (disk : Option PersistedHub) (now : Int) : Prop where
  persistent : h.path ≠ ""
  nextID : (onFile disk).nextID = h.nextID
  short : ∀ key, (h.queue key).length ≤ maxQueuePerRecipient
  shortOnFile : ∀ key, ((onFile disk).queue key).length ≤ maxQueuePerRecipient
  entries : ∀ later, now ≤ later → ∀ key,
    unexpired later ((onFile disk).queue key) = unexpired later (h.queue key)

variable {h h' : Hub} {disk disk' : Option PersistedHub}

/-- The hub has changed elsewhere, and time has passed. -/
theorem Mirrored.frame (mirrored : Mirrored h disk now) (path : h'.path = h.path)
    (nextID : h'.nextID = h.nextID) (queue : h'.queue = h.queue) (le : now ≤ later) :
    Mirrored h' disk later := by
  refine ⟨path ▸ mirrored.persistent, ?_, ?_, mirrored.shortOnFile, ?_⟩
  · rw [nextID]
    exact mirrored.nextID
  · rw [queue]
    exact mirrored.short
  · rw [queue]
    intro t after
    exact mirrored.entries t (Int.le_trans le after)

/-- The file has just been written. -/
theorem mirrored_of_persisted (persistent : h.path ≠ "")
    (short : ∀ key, (h.queue key).length ≤ maxQueuePerRecipient) :
    Mirrored h (h.persistLocked true disk) now := by
  have written : h.persistLocked true disk = some ⟨h.nextID, h.queue⟩ := by
    unfold Hub.persistLocked
    rw [if_neg persistent, if_pos rfl]
  rw [written]
  exact ⟨persistent, rfl, short, short, fun _ _ _ => rfl⟩

/-- `register` writes the file, or drops expired entries only. -/
theorem Mirrored.register (mirrored : Mirrored h disk now) (c : ConnId) (key : String)
    (le : now ≤ later) :
    Mirrored (h.register c key later true disk).1 (h.register c key later true disk).2.1
      later := by
  obtain ⟨taken, -⟩ := register_eq h c key later true disk
  have short (k : String) : (Function.update h.queue key [] k).length ≤ maxQueuePerRecipient := by
    rw [Function.update_apply]
    split
    · exact Nat.zero_le _
    · exact mirrored.short k
  rcases register_persist h c key later true disk with ⟨nothing, same⟩ | written
  · rw [same, taken]
    refine ⟨mirrored.persistent, mirrored.nextID, short, mirrored.shortOnFile, ?_⟩
    intro t after k
    rw [mirrored.entries t (Int.le_trans le after) k]
    dsimp only
    rw [Function.update_apply]
    split
    · next own =>
      rw [own, ← unexpired_unexpired after, unexpired_of_kept_nil nothing]
    · rfl
  · rw [written, taken]
    exact mirrored_of_persisted mirrored.persistent short

/-- `route` to a connected recipient writes the file. -/
theorem Mirrored.count (mirrored : Mirrored h disk now) :
    Mirrored h.count (h.count.persistLocked true disk) later :=
  mirrored_of_persisted mirrored.persistent mirrored.short

/-- `route` to an offline recipient writes the pruned queue. -/
theorem Mirrored.enqueue (mirrored : Mirrored h disk now) (env : RelayEnvelope.Envelope)
    (enqueuedAt : Int) :
    Mirrored (h.enqueue env enqueuedAt later)
      ((h.enqueue env enqueuedAt later).persistLocked true disk) later := by
  refine mirrored_of_persisted mirrored.persistent ?_
  intro key
  simp only [Hub.enqueue, Function.update_apply]
  split
  · exact length_kept_le _ _
  · exact mirrored.short key

/-- A restart prunes at its own time, and leaves the file alone. -/
theorem Mirrored.restart (mirrored : Mirrored h disk now) (pusher : Bool) :
    Mirrored (boot h.path pusher disk later) disk later := by
  obtain ⟨path, nextID, queue⟩ := boot_onFile mirrored.persistent pusher disk later
  refine ⟨?_, nextID.symm, ?_, mirrored.shortOnFile, ?_⟩
  · rw [path]
    exact mirrored.persistent
  · intro key
    rw [queue]
    exact length_kept_le _ _
  · intro t after key
    rw [queue, kept_eq_unexpired (mirrored.shortOnFile key), unexpired_unexpired after]

/-! ## What a step does to the hub and the file -/

/-- The sections of the hub that touch the queues or the file, and everything else. -/
inductive Touches (s s' : Relay) : Action → Prop where
  | nothing {a : Action} (path : s'.hub.path = s.hub.path) (nextID : s'.hub.nextID = s.hub.nextID)
      (queue : s'.hub.queue = s.hub.queue) (disk : s'.disk = s.disk) : Touches s s' a
  | register {now : Int} (hub : s'.hub = (s.hub.register c key now wrote s.disk).1)
      (disk : s'.disk = (s.hub.register c key now wrote s.disk).2.1) :
      Touches s s' (.at c (.register now wrote))
  | count {now : Int} (hub : s'.hub = s.hub.count) (disk : s'.disk = s.hub.count.persistLocked wrote s.disk) :
      Touches s s' (.at c (.frame msg enqueuedAt now wrote))
  | enqueue {now : Int} (hub : s'.hub = s.hub.enqueue env enqueuedAt now)
      (disk : s'.disk = (s.hub.enqueue env enqueuedAt now).persistLocked wrote s.disk) :
      Touches s s' (.at c (.frame msg enqueuedAt now wrote))

variable {s s' : Relay} {a : Action}

theorem touches_of_same (hub : s'.hub = s.hub) (disk : s'.disk = s.disk) : Touches s s' a :=
  .nothing (by rw [hub]) (by rw [hub]) (by rw [hub]) disk

theorem touches_of_send {target : ConnId} {msg : RelayEnvelope.RelayMessage} {after : Relay}
    (sent : s.send target msg = some after) (hub : s'.hub = after.hub)
    (disk : s'.disk = after.disk) : Touches s s' a := by
  obtain ⟨sameHub, sameDisk, -⟩ := send_frame sent
  exact touches_of_same (hub.trans sameHub) (disk.trans sameDisk)

theorem step_touches (moved : s.step a = some s') : Touches s s' a := by
  cases step_moves moved with
  | connect | startWriter | take | write | writeError | drained | ignore | receipt | readError
  | closeOut | closeTwice | closeConn | expire | flushPanic | sendLivePanic | ackPanic
  | forwardPanic => exact touches_of_same rfl rfl
  | register => exact .register rfl rfl
  | flush _ _ sent | ack _ _ _ sent | forward _ _ sent => exact touches_of_send sent rfl rfl
  | sendLive _ _ sent => exact touches_of_send sent rfl rfl
  | registerPush => exact .nothing rfl rfl rfl rfl
  | routeLive => exact .count rfl rfl
  | routeOffline => exact .enqueue rfl rfl
  | unregister => exact .nothing (unregister_path ..) (unregister_nextID ..) (unregister_queue ..) rfl

theorem le_of_advance {readings : List Int} (advanced : advance now readings = some later) :
    now ≤ later := by
  induction readings generalizing now with
  | nil =>
    cases advanced
    exact Int.le_refl _
  | cons reading rest ih =>
    simp only [advance, Option.ite_none_right_eq_some] at advanced
    obtain ⟨le, advanced⟩ := advanced
    exact Int.le_trans le (ih advanced)

theorem advance_one {reading : Int} (advanced : advance now [reading] = some later) :
    now ≤ later ∧ later = reading := by
  simp only [advance, Option.ite_none_right_eq_some, Option.some.injEq] at advanced
  exact ⟨advanced.2 ▸ advanced.1, advanced.2.symm⟩

theorem advance_pair {first second : Int} (advanced : advance now [first, second] = some later) :
    later = second := by
  simp only [advance, Option.ite_none_right_eq_some, Option.some.injEq] at advanced
  exact advanced.2.2.symm

/-- An action keeps the file a mirror of the memory. -/
theorem Mirrored.act {w : Clocked} (mirrored : Mirrored s.hub s.disk now)
    (written : Written w (.act a)) (moved : s.step a = some s')
    (advanced : advance now (readings (.act a)) = some later) :
    Mirrored s'.hub s'.disk later := by
  cases step_touches moved with
  | nothing path nextID queue disk =>
    rw [disk]
    exact mirrored.frame path nextID queue (le_of_advance advanced)
  | register hub disk =>
    cases written
    obtain ⟨le, rfl⟩ := advance_one advanced
    rw [hub, disk]
    exact mirrored.register _ _ le
  | count hub disk =>
    cases written
    rw [hub, disk]
    exact mirrored.count
  | enqueue hub disk =>
    cases written
    obtain rfl := advance_pair advanced
    rw [hub, disk]
    exact mirrored.enqueue _ _

theorem step_mirrored {w w' : Clocked} {e : Event} (mirrored : Mirrored w.relay.hub w.relay.disk w.now)
    (written : Written w e) (moved : w.step e = some w') :
    Mirrored w'.relay.hub w'.relay.disk w'.now := by
  simp only [Clocked.step, Option.bind_eq_bind, Option.bind_eq_some_iff] at moved
  obtain ⟨now, advanced, relay, stepped, result⟩ := moved
  cases result
  cases e with
  | act a => exact mirrored.act written stepped advanced
  | restart pusher readable reading =>
    cases written
    cases stepped
    obtain ⟨-, rfl⟩ := advance_one advanced
    exact mirrored.restart pusher

theorem reached_mirrored {w : Clocked} (reached : clocked.Reached Written w) :
    Mirrored w.relay.hub w.relay.disk w.now := by
  refine reached.invariant (fun w => Mirrored w.relay.hub w.relay.disk w.now) ?_
    fun _ _ _ mirrored written moved => step_mirrored mirrored written moved
  rintro w ⟨path, pusher, persistent, fresh⟩
  rw [fresh]
  exact ⟨persistent, rfl, fun _ => Nat.zero_le _, fun _ => Nat.zero_le _, fun _ _ _ => rfl⟩

/-- **A crash of the relay loses no queued envelope.** In every run of a relay with
a file, whose clock does not go backwards and whose writes go through, restarts
included, at every point between two critical sections, a relay started over the
file at any later time has the counter of the one that crashed, and under every
key its queue less the entries that have expired by then, in the same order. -/
theorem restart_keeps_queues {w : Clocked} (reached : clocked.Reached Written w) {t : Int}
    (later : w.now ≤ t) (pusher : Bool) :
    (boot w.relay.hub.path pusher w.relay.disk t).nextID = w.relay.hub.nextID ∧
      ∀ key, (boot w.relay.hub.path pusher w.relay.disk t).queue key =
        unexpired t (w.relay.hub.queue key) := by
  have mirrored := reached_mirrored reached
  obtain ⟨-, nextID, queue⟩ := boot_onFile mirrored.persistent pusher w.relay.disk t
  refine ⟨nextID.trans mirrored.nextID, ?_⟩
  intro key
  rw [queue, kept_eq_unexpired (mirrored.shortOnFile key), mirrored.entries t later key]

/-- A frame of alice's for bob. -/
def noteToBob : RelayEnvelope.RelayMessage where
  kind := "send"
  envelope := some
    { id := "", recipientID := "bob", recipientDevice := 1, senderID := "", senderDevice := 0
      type := 2, ciphertext := "AAEC", timestamp := 0 }

/-- Two notes are queued for bob, a day apart. -/
def twoNotes : List Event :=
  [ .act (.connect "alice" 1), .act (.at 0 (.register 0 true)), .act (.at 0 .startWriter),
    .act (.at 0 (.frame (some noteToBob) 1 1 true)), .act (.at 0 (.ack 1)),
    .act (.at 0 (.frame (some noteToBob) 86400000 86400000 true)) ]

/-- The relay crashes, and is started when only the second has not expired. -/
theorem second_note_survives_crash : ∃ w, clocked.Reached Written w ∧
    w.now ≤ queueTTL + 2 ∧
    ((w.relay.hub.queue "bob:1").map (·.env.id) = ["env-1", "env-2"]) ∧
    (unexpired (queueTTL + 2) (w.relay.hub.queue "bob:1")).map (·.env.id) = ["env-2"] ∧
    (boot w.relay.hub.path false w.relay.disk (queueTTL + 2)).nextID = w.relay.hub.nextID ∧
      ∀ key, (boot w.relay.hub.path false w.relay.disk (queueTTL + 2)).queue key =
        unexpired (queueTTL + 2) (w.relay.hub.queue key) := by
  let begun : Clocked := { relay := started (newHub "relay.json" false) none, now := 0 }
  have observed : (clocked.checkedRun Written begun twoNotes).map
      (fun w => (w.now, (w.relay.hub.queue "bob:1").map (·.env.id),
        (unexpired (queueTTL + 2) (w.relay.hub.queue "bob:1")).map (·.env.id))) =
          some (86400000, ["env-1", "env-2"], ["env-2"]) := by decide +kernel
  have start : clocked.start begun := ⟨"relay.json", false, by decide, rfl⟩
  obtain ⟨w, reached, seen⟩ := Machine.reached_of_observed observed (.start start)
  obtain ⟨clock, both, second⟩ := Prod.mk.inj seen |>.imp id Prod.mk.inj
  have later : w.now ≤ queueTTL + 2 := by
    rw [clock]
    decide
  exact ⟨w, reached, later, both, second, restart_keeps_queues reached later false⟩

end Hwfa.RelayRestart
