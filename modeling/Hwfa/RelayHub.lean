import Mathlib.Logic.Function.Basic
import Hwfa.RelayEnvelope

/-!
The relay's routing core (`backend/relay/hub.go`): the critical sections of the
`Hub`, each a function of the hub, the clock reading and the persisted file.

A Go map is a total function here: a missing key is `none`, the nil slice or the
empty string, which is what indexing it yields and all the code tells apart.
The file holds the `persistedHub` it was marshalled from: `encoding/json`
restores every field exactly, strings being valid UTF-8.  `wrote` says whether
the write-and-rename of `persistLocked` went through; when it did not, the old
file stays.
-/

namespace Hwfa.RelayHub

open Hwfa.RelayEnvelope

/-- Identity of one `*Client`. -/
abbrev ConnId := Nat

/-- `queueTTL.Milliseconds()`. -/
def queueTTL : Int := 30 * 24 * 60 * 60 * 1000

def maxQueuePerRecipient : Nat := 1000

/-- `hub.go::queuedEnvelope`. -/
structure QueuedEnvelope where
  env : Envelope
  enqueuedAt : Int
  deriving DecidableEq, Repr

/-- `hub.go::Hub` without its mutex; `pusher` says whether one is attached. -/
structure Hub where
  path : String
  conns : String → Option ConnId
  queue : String → List QueuedEnvelope
  pushTokens : String → String
  pusher : Bool
  nextID : UInt64

/-- `hub.go::persistedHub`. -/
structure PersistedHub where
  nextID : UInt64
  queue : String → List QueuedEnvelope

/-- `hub.go::NewHub`, with the path and pusher `main` sets right after. -/
def newHub (path : String) (pusher : Bool) : Hub where
  path := path
  conns := fun _ => none
  queue := fun _ => []
  pushTokens := fun _ => ""
  pusher := pusher
  nextID := 0

/-- Too old to keep at `now`, by the server's enqueue time. -/
def Expired (now : Int) (qe : QueuedEnvelope) : Prop := qe.enqueuedAt < now - queueTTL

instance (now : Int) : DecidablePred (Expired now) := fun qe =>
  inferInstanceAs (Decidable (qe.enqueuedAt < now - queueTTL))

/-- The entries the TTL leaves. -/
def unexpired (now : Int) (q : List QueuedEnvelope) : List QueuedEnvelope :=
  q.filter fun qe => ¬ Expired now qe

/-- The entries `pruneQueueLocked` keeps: unexpired, and of these the newest. -/
def kept (now : Int) (q : List QueuedEnvelope) : List QueuedEnvelope :=
  let live := unexpired now q
  if maxQueuePerRecipient < live.length then live.drop (live.length - maxQueuePerRecipient)
  else live

/-- The entries `pruneQueueLocked` removes: the expired ones, and the unexpired
ones that are not among the newest `maxQueuePerRecipient`. -/
def removed (now : Int) (q : List QueuedEnvelope) : List QueuedEnvelope :=
  q.filter (Expired now ·) ++
    (unexpired now q).take ((unexpired now q).length - maxQueuePerRecipient)

/-- `Hub.pruneQueueLocked`, with whether anything was dropped. -/
def Hub.pruneQueueLocked (h : Hub) (key : String) (now : Int) : Hub × Bool :=
  let q := h.queue key
  if q.length = 0 then (h, false)
  else if (kept now q).length = q.length then (h, false)
  else ({ h with queue := Function.update h.queue key (kept now q) }, true)

/-- `Hub.persistLocked`. -/
def Hub.persistLocked (h : Hub) (wrote : Bool) (disk : Option PersistedHub) :
    Option PersistedHub :=
  if h.path = "" then disk
  else if wrote then some { nextID := h.nextID, queue := h.queue } else disk

/-- `Hub.load`; every key of the loaded queue is pruned, at one clock reading. -/
def Hub.load (h : Hub) (disk : Option PersistedHub) (now : Int) : Hub :=
  match disk with
  | none => h
  | some state => { h with nextID := state.nextID, queue := fun key => kept now (state.queue key) }

/-- `hub.go::NewPersistentHub`, or `NewHub` when no path is configured. -/
def boot (path : String) (pusher : Bool) (disk : Option PersistedHub) (now : Int) : Hub :=
  if path = "" then newHub path pusher else (newHub path pusher).load disk now

/-- `Hub.registerPushToken`. -/
def Hub.registerPushToken (h : Hub) (key token : String) : Hub :=
  { h with pushTokens := Function.update h.pushTokens key token }

/-- The critical section of `Hub.register`: the hub, the file, and the drained
copy that is flushed after the lock is released. -/
def Hub.register (h : Hub) (c : ConnId) (key : String) (now : Int) (wrote : Bool)
    (disk : Option PersistedHub) : Hub × Option PersistedHub × List QueuedEnvelope :=
  let h := { h with conns := Function.update h.conns key (some c) }
  let h := (h.pruneQueueLocked key now).1
  let pending := h.queue key
  if 0 < pending.length then
    let h := { h with queue := Function.update h.queue key [] }
    (h, h.persistLocked wrote disk, pending)
  else (h, disk, pending)

/-- `Hub.unregister`. -/
def Hub.unregister (h : Hub) (c : ConnId) (key : String) : Hub :=
  if h.conns key = some c then { h with conns := Function.update h.conns key none } else h

/-- The envelope `route` stamps, once it has counted it: only the id changes. -/
def Hub.stamp (h : Hub) (env : Envelope) : Envelope :=
  { env with id := "env-" ++ itoa h.nextID.toInt64 }

/-- What the critical section of `Hub.route` decides: the stamped envelope, the
connection to send it to, and the push token to wake when there is none. -/
structure Routed where
  hub : Hub
  disk : Option PersistedHub
  env : Envelope
  target : Option ConnId
  pushToken : String

/-- The critical section of `Hub.route`.  The clock is read twice, for the
queue entry and again by the pruning. -/
def Hub.route (h : Hub) (env : Envelope) (enqueuedAt now : Int) (wrote : Bool)
    (disk : Option PersistedHub) : Routed :=
  let key := env.key
  let h := { h with nextID := h.nextID + 1 }
  let env := h.stamp env
  match h.conns key with
  | some target => ⟨h, h.persistLocked wrote disk, env, some target, ""⟩
  | none =>
    let entry : QueuedEnvelope := { env := env, enqueuedAt := enqueuedAt }
    let h := { h with queue := Function.update h.queue key (h.queue key ++ [entry]) }
    let h := (h.pruneQueueLocked key now).1
    ⟨h, h.persistLocked wrote disk, env, none, h.pushTokens key⟩

/-! ## What the sections do to the queues -/

theorem kept_sublist (now : Int) (q : List QueuedEnvelope) : (kept now q).Sublist q := by
  unfold kept unexpired
  dsimp only
  split
  · exact (List.drop_sublist _ _).trans List.filter_sublist
  · exact List.filter_sublist

theorem mem_of_mem_kept {now : Int} {q : List QueuedEnvelope} {qe : QueuedEnvelope}
    (member : qe ∈ kept now q) : qe ∈ q := (kept_sublist now q).mem member

/-- Pruning loses nothing silently: an entry is kept or removed for a reason. -/
theorem kept_or_removed (now : Int) {q : List QueuedEnvelope} {qe : QueuedEnvelope}
    (member : qe ∈ q) : qe ∈ kept now q ∨ qe ∈ removed now q := by
  by_cases old : Expired now qe
  · exact .inr (List.mem_append_left _ (List.mem_filter.mpr ⟨member, by simpa using old⟩))
  · have live : qe ∈ unexpired now q := List.mem_filter.mpr ⟨member, by simpa using old⟩
    unfold kept removed
    dsimp only
    split
    · rw [← List.take_append_drop ((unexpired now q).length - maxQueuePerRecipient)
        (unexpired now q), List.mem_append] at live
      exact live.symm.imp id (List.mem_append_right _)
    · exact .inl live

/-- Pruning replaces one queue by what is kept of it. -/
theorem pruneQueueLocked_fst (h : Hub) (key : String) (now : Int) :
    (h.pruneQueueLocked key now).1 =
      { h with queue := Function.update h.queue key (kept now (h.queue key)) } := by
  have same (unchanged : kept now (h.queue key) = h.queue key) :
      h = { h with queue := Function.update h.queue key (kept now (h.queue key)) } := by
    rw [unchanged, Function.update_eq_self]
  unfold Hub.pruneQueueLocked
  dsimp only
  split
  · next empty =>
    exact same (by rw [List.length_eq_zero_iff.mp empty]; rfl)
  · split
    · next full => exact same ((kept_sublist now _).eq_of_length full)
    · rfl

/-- `register` hands over exactly what pruning keeps, and leaves no queue. -/
theorem register_eq (h : Hub) (c : ConnId) (key : String) (now : Int) (wrote : Bool)
    (disk : Option PersistedHub) :
    (h.register c key now wrote disk).1 =
        { h with conns := Function.update h.conns key (some c)
                 queue := Function.update h.queue key [] } ∧
      (h.register c key now wrote disk).2.2 = kept now (h.queue key) := by
  unfold Hub.register
  simp only [pruneQueueLocked_fst, Function.update_self]
  split
  · simp
  · next empty =>
    have none : kept now (h.queue key) = [] := by simpa using empty
    simp [none]

/-- The file after `register` is the old one or holds the drained hub. -/
theorem register_disk (h : Hub) (c : ConnId) (key : String) (now : Int) (wrote : Bool)
    (disk : Option PersistedHub) :
    (h.register c key now wrote disk).2.1 = disk ∨
      (h.register c key now wrote disk).2.1 =
        some ⟨h.nextID, Function.update h.queue key []⟩ := by
  unfold Hub.register
  simp only [pruneQueueLocked_fst, Function.update_self, Hub.persistLocked]
  split
  · split
    · exact .inl rfl
    · split
      · exact .inr (by simp)
      · exact .inl rfl
  · exact .inl rfl

/-- `register` writes the file exactly when it has something to flush. -/
theorem register_persist (h : Hub) (c : ConnId) (key : String) (now : Int) (wrote : Bool)
    (disk : Option PersistedHub) :
    kept now (h.queue key) = [] ∧ (h.register c key now wrote disk).2.1 = disk ∨
      (h.register c key now wrote disk).2.1 =
        (h.register c key now wrote disk).1.persistLocked wrote disk := by
  unfold Hub.register
  simp only [pruneQueueLocked_fst, Function.update_self]
  split
  · exact .inr rfl
  · next empty => exact .inl ⟨by simpa using empty, rfl⟩

@[simp] theorem unregister_queue (h : Hub) (c : ConnId) (key : String) :
    (h.unregister c key).queue = h.queue := by
  unfold Hub.unregister
  split <;> rfl

@[simp] theorem unregister_path (h : Hub) (c : ConnId) (key : String) :
    (h.unregister c key).path = h.path := by
  unfold Hub.unregister
  split <;> rfl

@[simp] theorem unregister_nextID (h : Hub) (c : ConnId) (key : String) :
    (h.unregister c key).nextID = h.nextID := by
  unfold Hub.unregister
  split <;> rfl

/-- `unregister` only removes, and only the connection it is called with. -/
theorem unregister_conns {h : Hub} {c d : ConnId} {key key' : String}
    (connected : (h.unregister c key).conns key' = some d) :
    h.conns key' = some d ∧ (d = c → key' ≠ key) := by
  unfold Hub.unregister at connected
  split at connected
  · simp only [Function.update_apply] at connected
    split at connected
    · cases connected
    · next other => exact ⟨connected, fun _ => other⟩
  · next held =>
    refine ⟨connected, ?_⟩
    rintro rfl rfl
    exact held connected

/-- The hub with one more envelope counted. -/
def Hub.count (h : Hub) : Hub := { h with nextID := h.nextID + 1 }

/-- The hub after `route` has queued for an offline recipient. -/
def Hub.enqueue (h : Hub) (env : Envelope) (enqueuedAt now : Int) : Hub :=
  let key := env.key
  { h.count with
    queue := Function.update h.queue key
      (kept now (h.queue key ++ [⟨h.count.stamp env, enqueuedAt⟩])) }

variable {h : Hub} {env : Envelope} {enqueuedAt now : Int} {wrote : Bool}
variable {disk : Option PersistedHub}

/-- Towards a connected recipient `route` only counts. -/
theorem route_live {target : ConnId}
    (connected : h.conns env.key = some target) :
    h.route env enqueuedAt now wrote disk =
      ⟨h.count, h.count.persistLocked wrote disk, h.count.stamp env, some target, ""⟩ := by
  simp [Hub.route, connected, Hub.count]

/-- Towards an offline recipient `route` appends to its queue and prunes it. -/
theorem route_offline
    (offline : h.conns env.key = none) :
    h.route env enqueuedAt now wrote disk =
      ⟨h.enqueue env enqueuedAt now, (h.enqueue env enqueuedAt now).persistLocked wrote disk,
        h.count.stamp env, none, h.pushTokens env.key⟩ := by
  simp [Hub.route, offline, Hub.enqueue, Hub.count, pruneQueueLocked_fst]

/-- A persisted file is an earlier one or the hub just written. -/
theorem persistLocked_cases (h : Hub) (wrote : Bool) (disk : Option PersistedHub) :
    h.persistLocked wrote disk = disk ∨
      h.persistLocked wrote disk = some ⟨h.nextID, h.queue⟩ := by
  unfold Hub.persistLocked
  split
  · exact .inl rfl
  · split
    · exact .inr rfl
    · exact .inl rfl

end Hwfa.RelayHub
