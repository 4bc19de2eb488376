import Mathlib.Data.Finset.Sort
import Mathlib.Data.String.Basic
import Hwfa.RelayWire

/-!
The file of the relay (`persistLocked`, `load` and `NewPersistentHub` of
`backend/relay/hub.go`), byte by byte.

A map of Go is written by its keys in their order, and what is read back is a map again.
Whatever has happened to a relay, the hub that is booted from the bytes on its file is the
one that is booted from the hub that was marshalled: what `RelayHub` says of the file.
-/

namespace Hwfa.RelayFile

open Hwfa.GoJson (Bytes IsInt64)
open Hwfa.GoStructs Hwfa.JsonWriters
open Hwfa.Machines Hwfa.RelayEnvelope Hwfa.RelayHub Hwfa.RelayProcess

/-! ### The bytes -/

def queuedEnvelopeFields : List (StructField QueuedEnvelope) := [
  field "env" RelayWire.envelope (·.env) fun qe env => { qe with env },
  field "enqueuedAt" int64 (·.enqueuedAt) fun qe enqueuedAt => { qe with enqueuedAt }]

def queuedEnvelope : Codec QueuedEnvelope :=
  struct ⟨RelayWire.envelope.zero, 0⟩ queuedEnvelopeFields

/-- The entries of a map of queues. -/
abbrev Entries := List (String × List QueuedEnvelope)

/-- `hub.go::persistedHub`, with the entries of its map. -/
structure State where
  nextID : UInt64
  queue : Entries

def stateFields : List (StructField State) := [
  field "nextId" uint64 (·.nextID) fun s nextID => { s with nextID },
  field "queue" (stringMap (slice queuedEnvelope)) (·.queue) fun s queue => { s with queue }]

def persistedHub : Codec State := struct ⟨0, []⟩ stateFields

/-- What `persistLocked` writes. -/
def persisted (state : State) : Bytes := marshalIndent (persistedHub.encode state)

/-- Indexing a map that has these entries. -/
def indexed (entries : Entries) (key : String) : List QueuedEnvelope :=
  ((entries.find? fun e => e.1 = key).map Prod.snd).getD []

/-- `Hub.load` of the bytes of a file, into a hub that `NewHub` has just made, whose map is
empty whether or not the one that is read is nil. -/
def Hub.loadBytes (h : Hub) (data : Bytes) (now : Int) : Hub :=
  match persistedHub.unmarshal data with
  | none => h
  | some state =>
    { h with nextID := state.nextID, queue := fun key => kept now (indexed state.queue key) }

/-- `NewPersistentHub` over the bytes of a file, or `NewHub` when no path is configured. -/
def bootBytes (path : String) (pusher : Bool) (file : Option Bytes) (now : Int) : Hub :=
  if path = "" then newHub path pusher
  else
    match file with
    | none => newHub path pusher
    | some data => Hub.loadBytes (newHub path pusher) data now

/-! ### Maps -/

/-- The entries of a map whose lists are not empty, by their keys in order. -/
structure IsMap (queue : String → List QueuedEnvelope) (entries : Entries) : Prop where
  sorted : entries.Pairwise fun a b => a.1 < b.1
  exact : ∀ key q, (key, q) ∈ entries ↔ queue key = q ∧ q ≠ []

variable {queue : String → List QueuedEnvelope} {entries others : Entries}

/-- The bytes of a file are settled by what they are to say. -/
theorem IsMap.unique (one : IsMap queue entries) (other : IsMap queue others) : entries = others := by
  have distinct {es : Entries} (map : IsMap queue es) : es.Nodup :=
    map.sorted.imp fun lt same => ne_of_lt lt (congrArg Prod.fst same)
  have perm : entries.Perm others := (List.perm_ext_iff_of_nodup (distinct one) (distinct other)).mpr
    fun e => (one.exact e.1 e.2).trans (other.exact e.1 e.2).symm
  exact perm.eq_of_pairwise (fun a b _ _ lt lt' => absurd lt' (lt_asymm lt)) one.sorted other.sorted

theorem IsMap.distinct (map : IsMap queue entries) : (entries.map Prod.fst).Nodup := by
  rw [List.Nodup, List.pairwise_map]
  exact map.sorted.imp fun lt => ne_of_lt lt

/-- A map with these entries gives what it was made of. -/
theorem IsMap.indexed (map : IsMap queue entries) : indexed entries = queue := by
  funext key
  cases found : entries.find? fun e => e.1 = key with
  | none =>
    rw [List.find?_eq_none] at found
    have empty : queue key = [] := by
      by_contra filled
      exact found _ ((map.exact key _).mpr ⟨rfl, filled⟩) (by simp)
    have gone : entries.find? (fun e => e.1 = key) = none := List.find?_eq_none.mpr found
    rw [RelayFile.indexed, gone, empty]
    rfl
  | some e =>
    have named : e.1 = key := by simpa using List.find?_some found
    have held := ((map.exact e.1 e.2).mp (List.mem_of_find?_eq_some found)).1
    rw [RelayFile.indexed, found, ← named, held]
    rfl

/-- A map that is empty but for some keys has entries. -/
theorem exists_isMap {keys : Finset String} (finite : ∀ key, queue key ≠ [] → key ∈ keys) :
    ∃ entries, IsMap queue entries := by
  let filled := keys.filter fun key => queue key ≠ []
  refine ⟨filled.sort.map fun key => (key, queue key), ?_, ?_⟩
  · rw [List.pairwise_map]
    exact (Finset.sortedLT_sort filled).pairwise
  · intro key q
    simp only [List.mem_map, Finset.mem_sort, Prod.mk.injEq]
    constructor
    · rintro ⟨key', member, rfl, rfl⟩
      exact ⟨rfl, (Finset.mem_filter.mp member).2⟩
    · rintro ⟨rfl, nonempty⟩
      exact ⟨key, Finset.mem_filter.mpr ⟨finite key nonempty, nonempty⟩, rfl, rfl⟩

/-! ### Reading back -/

theorem keeps_envelope : RelayWire.envelope.Lawful := by
  intro e
  apply keeps_struct
  · exact RelayWire.envelope_distinct
  · exact .cons (takes_field (lawful_string _) rfl) <| .cons (takes_field (lawful_string _) rfl) <|
      .cons (takes_field (lawful_int _) rfl) <| .cons (takes_field (lawful_string _) rfl) <|
      .cons (takes_field (lawful_int _) rfl) <| .cons (takes_field (lawful_int _) rfl) <|
      .cons (takes_field (lawful_string _) rfl) <| .cons (takes_field (lawful_int _) rfl) <| .nil _

/-- The time of an entry is one that its field can hold. -/
def Timed (qe : QueuedEnvelope) : Prop := IsInt64 qe.enqueuedAt

theorem keeps_queuedEnvelope {qe : QueuedEnvelope} (timed : Timed qe) : queuedEnvelope.Keeps qe := by
  apply keeps_struct
  · decide
  · exact .cons (takes_field (keeps_envelope _) rfl) <|
      .cons (takes_field (keeps_int64 timed) rfl) <| .nil _

theorem keeps_persistedHub {state : State} (distinct : (state.queue.map Prod.fst).Nodup)
    (timed : ∀ e ∈ state.queue, ∀ qe ∈ e.2, Timed qe) : persistedHub.Keeps state := by
  apply keeps_struct
  · decide
  · refine .cons (takes_field (lawful_uint64 _) rfl) <| .cons (takes_field ?_ rfl) <| .nil _
    refine keeps_stringMap (fun e member => ?_) distinct
    exact keeps_slice fun qe inside => keeps_queuedEnvelope (timed e member qe inside)

theorem plain_persistedHub : persistedHub.Plain := by
  have queued : queuedEnvelope.Plain := by
    apply plain_struct
    simp only [queuedEnvelopeFields, List.forall_mem_cons]
    exact ⟨plain_field RelayWire.plain_envelope, plain_field plain_int64, List.forall_mem_nil _⟩
  apply plain_struct
  simp only [stateFields, List.forall_mem_cons]
  exact ⟨plain_field plain_uint64, plain_field (plain_stringMap (plain_slice queued)),
    List.forall_mem_nil _⟩

theorem within_persistedHub : persistedHub.Within 5 := by
  have envelope : RelayWire.envelope.Within 1 := by
    apply within_struct
    simp only [RelayWire.envelopeFields, List.forall_mem_cons]
    exact ⟨within_field (within_string 0), within_field (within_string 0), within_field (within_int 0),
      within_field (within_string 0), within_field (within_int 0), within_field (within_int 0),
      within_field (within_string 0), within_field (within_int 0), List.forall_mem_nil _⟩
  have queued : queuedEnvelope.Within 2 := by
    apply within_struct
    simp only [queuedEnvelopeFields, List.forall_mem_cons]
    exact ⟨within_field envelope, within_field (within_int64 1), List.forall_mem_nil _⟩
  apply within_struct
  simp only [stateFields, List.forall_mem_cons]
  exact ⟨within_field (within_uint64 4), within_field (within_stringMap (within_slice queued)),
    List.forall_mem_nil _⟩

/-- The bytes of a state give it back. -/
theorem unmarshal_persisted {state : State} (distinct : (state.queue.map Prod.fst).Nodup)
    (timed : ∀ e ∈ state.queue, ∀ qe ∈ e.2, Timed qe) :
    persistedHub.unmarshal (persisted state) = some state :=
  unmarshal_marshalWith isBlank_indented plain_persistedHub within_persistedHub (by decide)
    (keeps_persistedHub distinct timed)

/-! ### Every file of every run -/

/-- What a map must be to be written and read back. -/
structure Storable (queue : String → List QueuedEnvelope) : Prop where
  finite : ∃ keys : Finset String, ∀ key, queue key ≠ [] → key ∈ keys
  timed : ∀ key, ∀ qe ∈ queue key, Timed qe

theorem storable_empty : Storable fun _ => [] :=
  ⟨⟨∅, fun _ filled => absurd rfl filled⟩, fun _ _ member => absurd member List.not_mem_nil⟩

theorem Storable.update (storable : Storable queue) (key : String) {q : List QueuedEnvelope}
    (timed : ∀ qe ∈ q, Timed qe) : Storable (Function.update queue key q) := by
  obtain ⟨keys, finite⟩ := storable.finite
  refine ⟨⟨insert key keys, fun key' filled => ?_⟩, fun key' qe member => ?_⟩
  · rw [Function.update_apply] at filled
    split at filled
    · next own => exact own ▸ Finset.mem_insert_self key keys
    · exact Finset.mem_insert_of_mem (finite key' filled)
  · rw [Function.update_apply] at member
    split at member
    · exact timed qe member
    · exact storable.timed key' qe member

theorem Storable.kept (storable : Storable queue) (now : Int) :
    Storable fun key => kept now (queue key) := by
  obtain ⟨keys, finite⟩ := storable.finite
  refine ⟨⟨keys, fun key filled => finite key fun empty => filled ?_⟩, fun key qe member => ?_⟩
  · exact List.sublist_nil.mp (empty ▸ kept_sublist now (queue key))
  · exact storable.timed key qe (mem_of_mem_kept member)

/-- The hub and its file. -/
structure Sound (s : Relay) : Prop where
  queue : Storable s.hub.queue
  disk : ∀ p, s.disk = some p → Storable p.queue

/-- The clock of the relay, which `nowMillis` reads, is of 64 bits. -/
def Clocked (_ : Relay) : Event → Prop
  | .act (.at _ (.frame _ enqueuedAt _ _)) => IsInt64 enqueuedAt
  | _ => True

variable {s s' : Relay}

theorem persistLocked_storable {h : Hub} {wrote : Bool} {disk : Option PersistedHub}
    (queue : Storable h.queue) (old : ∀ p, disk = some p → Storable p.queue) :
    ∀ p, h.persistLocked wrote disk = some p → Storable p.queue := by
  intro p written
  rcases persistLocked_cases h wrote disk with kept | fresh
  · exact old p (kept ▸ written)
  · rw [fresh] at written
    cases written
    exact queue

theorem step_sound {a : Action} (sound : Sound s) (clocked : Clocked s (.act a))
    (moved : s.step a = some s') : Sound s' := by
  have frame {r : Relay} (hub : r.hub.queue = s.hub.queue) (disk : r.disk = s.disk) : Sound r :=
    ⟨hub ▸ sound.queue, disk ▸ sound.disk⟩
  cases step_moves moved with
  | @register c cl now wrote found pc =>
    have drained := sound.queue.update cl.routeKey (q := []) (List.forall_mem_nil _)
    refine ⟨?_, ?_⟩
    · rw [goto_hub, (register_eq s.hub c cl.routeKey now wrote s.disk).1]
      exact drained
    · intro p written
      rcases register_disk s.hub c cl.routeKey now wrote s.disk with same | fresh
      · exact sound.disk p (same ▸ written)
      · rw [show _ = _ from fresh] at written
        cases written
        exact drained
  | flush _ _ sent => exact frame (congrArg Hub.queue (send_frame sent).1) (send_frame sent).2.1
  | routeLive _ _ _ _ => exact ⟨sound.queue, persistLocked_storable sound.queue sound.disk⟩
  | @routeOffline c cl env envelope msg enqueuedAt now wrote found pc claimed offline =>
    have queued : Storable (s.hub.enqueue env enqueuedAt now).queue := by
      refine sound.queue.update env.key fun qe member => ?_
      rcases List.mem_append.mp (mem_of_mem_kept member) with before | new
      · exact sound.queue.timed env.key qe before
      · rw [List.mem_singleton.mp new]
        exact clocked
    exact ⟨queued, persistLocked_storable queued sound.disk⟩
  | sendLive _ _ sent => exact frame (congrArg Hub.queue (send_frame sent).1) (send_frame sent).2.1
  | ack _ _ _ sent => exact frame (congrArg Hub.queue (send_frame sent).1) (send_frame sent).2.1
  | forward _ _ sent => exact frame (congrArg Hub.queue (send_frame sent).1) (send_frame sent).2.1
  | unregister _ _ => exact frame (unregister_queue _ _ _) rfl
  | _ => exact frame rfl rfl

theorem boot_storable {path : String} {pusher : Bool} {disk : Option PersistedHub} {now : Int}
    (old : ∀ p, disk = some p → Storable p.queue) : Storable (boot path pusher disk now).queue := by
  unfold boot
  split
  · exact storable_empty
  · cases disk with
    | none => exact storable_empty
    | some p => exact (old p rfl).kept now

theorem reached_sound (reached : service.Reached Clocked s) : Sound s := by
  refine reached.invariant Sound ?_ ?_
  · rintro s ⟨path, pusher, rfl⟩
    refine ⟨storable_empty, fun p written => ?_⟩
    cases written
  · rintro s event s' sound clocked moved
    cases event with
    | act a => exact step_sound sound clocked moved
    | restart pusher readable now =>
      cases moved
      refine ⟨boot_storable fun p read => sound.disk p ?_, sound.disk⟩
      split at read
      · exact read
      · cases read

/-- The bytes that are on the file. -/
inductive IsFile : Option PersistedHub → Option Bytes → Prop where
  | missing : IsFile none none
  | written {p : PersistedHub} {entries : Entries} (map : IsMap p.queue entries) :
    IsFile (some p) (some (persisted ⟨p.nextID, entries⟩))

/-- A file whose bytes are read is the hub that was written. -/
theorem bootBytes_eq {disk : Option PersistedHub} {file : Option Bytes}
    (storable : ∀ p, disk = some p → Storable p.queue) (same : IsFile disk file) (path : String)
    (pusher : Bool) (now : Int) : bootBytes path pusher file now = boot path pusher disk now := by
  cases same with
  | missing => rfl
  | @written p entries map =>
    have timed : ∀ e ∈ entries, ∀ qe ∈ e.2, Timed qe := by
      intro e member qe inside
      have held := ((map.exact e.1 e.2).mp member).1
      exact (storable p rfl).timed e.1 qe (held ▸ inside)
    have read : persistedHub.unmarshal (persisted ⟨p.nextID, entries⟩) = some ⟨p.nextID, entries⟩ :=
      unmarshal_persisted map.distinct timed
    unfold bootBytes boot
    split
    · rfl
    · simp only [Hub.loadBytes, read, map.indexed, Hub.load]

/-- **The file gives the hub back.** In every state of every run of the relay, failed
writes and restarts included, exactly one sequence of bytes can be on the file for what was
last written, and a relay that boots from these bytes, at any time, is the relay that boots
from the hub itself: with every queue, every envelope in its place, and the next number. -/
theorem file_gives_the_hub_back (reached : service.Reached Clocked s) :
    (∃! file, IsFile s.disk file) ∧ ∀ file, IsFile s.disk file →
      ∀ path pusher now, bootBytes path pusher file now = boot path pusher s.disk now := by
  have storable := (reached_sound reached).disk
  refine ⟨?_, fun file same => bootBytes_eq storable same⟩
  cases disk : s.disk with
  | none =>
    refine ⟨none, .missing, fun other same => ?_⟩
    cases same
    rfl
  | some p =>
    obtain ⟨keys, finite⟩ := (storable p disk).finite
    obtain ⟨entries, map⟩ := exists_isMap finite
    refine ⟨some (persisted ⟨p.nextID, entries⟩), .written map, fun other same => ?_⟩
    cases same with
    | written map' => rw [map'.unique map]

instance (s : Relay) : DecidablePred (Clocked s)
  | .act (.at _ (.frame _ enqueuedAt _ _)) => inferInstanceAs (Decidable (IsInt64 enqueuedAt))
  | .act (.connect ..) | .restart .. | .act (.at _ (.register ..)) | .act (.at _ .flush)
  | .act (.at _ .startWriter) | .act (.at _ .take) | .act (.at _ (.write _)) | .act (.at _ .drained)
  | .act (.at _ .sendLive) | .act (.at _ (.ack _)) | .act (.at _ .forward) | .act (.at _ .readError)
  | .act (.at _ .unregister) | .act (.at _ .closeOut) | .act (.at _ .closeConn)
  | .act (.at _ .expire) => .isTrue trivial

/-- The letter stays on the file. -/
theorem letter_is_on_the_file : ∃ s, service.Reached Clocked s ∧
    (s.disk.map fun p => (p.nextID, (p.queue (routeKey "bob:7" Int64.minValue)).length)) = some (1, 1) ∧
    (∃! file, IsFile s.disk file) ∧ ∀ file, IsFile s.disk file →
      ∀ path pusher now, bootBytes path pusher file now = boot path pusher s.disk now := by
  have observed : (service.checkedRun Clocked (started (newHub "relay.json" true) none)
      (RelayAddressing.letterAcrossRestart.take 4)).map (fun s => s.disk.map fun p =>
        (p.nextID, (p.queue (routeKey "bob:7" Int64.minValue)).length)) = some (some (1, 1)) := by
    decide +kernel
  obtain ⟨s, reached, seen⟩ := Machine.reached_of_observed observed (.start ⟨"relay.json", true, rfl⟩)
  exact ⟨s, reached, seen, file_gives_the_hub_back reached⟩

end Hwfa.RelayFile
