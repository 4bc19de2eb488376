import Hwfa.Holdings
import Hwfa.RelayAddressing

/-!
Envelope ids over whole runs of the relay, restarts included.

`route` numbers the envelopes it accepts, and `envelopeID` is the id of a number.
An id is then in one place at a time: still queued, in the hands of the handler
that drained or routed its envelope, on the channel of one connection, or on a
channel of an earlier process.  `Ledger` adds the last of these to the relay's
state, since a restart forgets its connections.

The queue that counts is the one in the file where there is one: pruning in
`register` is not persisted when nothing is left to flush, so the file may hold
more than the memory, and this is what a restart brings back.
-/

namespace Hwfa.RelayIdentity

open Hwfa.Machines Hwfa.Holdings Hwfa.RelayEnvelope Hwfa.RelayHub Hwfa.RelayProcess
open Hwfa.RelayWiring Hwfa.RelayAddressing

/-! ## Envelope numbers -/

/-- The id of the envelope that `route` counts as number `n`. -/
def envelopeID (n : UInt64) : String := "env-" ++ itoa n.toInt64

theorem envelopeID_injective {m n : UInt64} (same : envelopeID m = envelopeID n) : m = n := by
  have numerals : itoa m.toInt64 = itoa n.toInt64 := by simpa [envelopeID] using same
  exact congrArg Int64.toUInt64 (itoa_injective numerals)

/-- The id is one of those given out while the counter went up to `n`. -/
def Upto (n : UInt64) (id : String) : Prop := ∃ m, m ≤ n ∧ id = envelopeID m

theorem Upto.mono {m n : UInt64} {id : String} (upto : Upto m id) (le : m ≤ n) : Upto n id := by
  obtain ⟨k, below, same⟩ := upto
  exact ⟨k, UInt64.le_trans below le, same⟩

/-- The counter can be advanced without wrapping around. -/
def Countable (h : Hub) : Prop := h.nextID + 1 ≠ 0

instance (h : Hub) : Decidable (Countable h) := inferInstanceAs (Decidable (_ ≠ _))

theorem Countable.lt {h : Hub} (countable : Countable h) : h.nextID < h.count.nextID := by
  have bound := h.nextID.toNat_lt
  rw [UInt64.lt_iff_toNat_lt, Hub.count, UInt64.toNat_add]
  have nonzero : (h.nextID.toNat + 1) % 2 ^ 64 ≠ 0 := by
    intro wrapped
    apply countable
    rw [← UInt64.toNat_inj, UInt64.toNat_add]
    exact wrapped
  simp only [UInt64.toNat_one]
  omega

theorem Countable.le {h : Hub} (countable : Countable h) : h.nextID ≤ h.count.nextID :=
  UInt64.le_of_lt countable.lt

@[simp] theorem stamp_id (h : Hub) (env : Envelope) :
    (h.count.stamp env).id = envelopeID h.count.nextID := rfl

/-- The number `route` stamps next has not been given out. -/
theorem Countable.new {h : Hub} (countable : Countable h) :
    ¬ Upto h.nextID (envelopeID h.count.nextID) := by
  rintro ⟨m, below, same⟩
  rw [← envelopeID_injective same] at below
  exact UInt64.not_le.mpr countable.lt below

/-! ## Where an id can be -/

/-- The envelopes that frames carry to their recipient. -/
def deliveries (frames : List RelayMessage) : List Envelope :=
  frames.filterMap fun msg => if msg.kind = "deliver" then msg.envelope else none

@[simp] theorem deliveries_append (first second : List RelayMessage) :
    deliveries (first ++ second) = deliveries first ++ deliveries second :=
  List.filterMap_append

@[simp] theorem deliveries_deliver (env : Envelope) : deliveries [deliver env] = [env] := rfl

theorem deliveries_other {msg : RelayMessage} (other : msg.kind ≠ "deliver") :
    deliveries [msg] = [] := by
  simp [deliveries, other]

/-- The envelopes a handler has taken under the lock and not sent yet. -/
def lane : Pc → List Envelope
  | .flushing pending => pending.map (·.env)
  | .routing _ env _ => [env]
  | _ => []

/-- A relay with the ids that were on its channels when it was restarted. -/
structure Ledger where
  relay : Relay
  past : List String := []

/-- The ids of the envelopes ever placed on a connection's channel. -/
def sentOn (s : Relay) (c : ConnId) : List String :=
  match s.clients c with
  | some cl => (deliveries cl.placed).map (·.id)
  | none => []

/-- The ids a connection's handler has in its hands. -/
def inHandsOf (s : Relay) (c : ConnId) : List String :=
  match s.clients c with
  | some cl => (lane cl.pc).map (·.id)
  | none => []

/-- The ids on the channels of this process, in no particular order. -/
def sent (s : Relay) : List String := (List.range s.nextConn).flatMap (sentOn s)

/-- Every placement of an envelope on a channel, over the restarts too. -/
def Ledger.placements (l : Ledger) : List String := l.past ++ sent l.relay

/-- The relay's runs with the placements remembered. -/
def journal : Machine Ledger Event where
  start l := service.start l.relay ∧ l.past = []
  step l event := (service.step l.relay event).map fun s =>
    match event with
    | .act _ => { l with relay := s }
    | .restart .. => { relay := s, past := l.placements }

/-- The assumptions of the promise: a file is configured and readable, every
write of it goes through, and the counter is not at its end. -/
def Reliable (l : Ledger) : Event → Prop
  | .act (.at _ (.register _ wrote)) => wrote = true
  | .act (.at _ (.frame _ _ _ wrote)) => wrote = true ∧ Countable l.relay.hub
  | .act _ => True
  | .restart _ readable _ => readable = true ∧ l.relay.hub.path ≠ ""

instance (l : Ledger) : (event : Event) → Decidable (Reliable l event)
  | .act (.at _ (.register _ wrote)) => inferInstanceAs (Decidable (wrote = true))
  | .act (.at _ (.frame _ _ _ wrote)) =>
    inferInstanceAs (Decidable (wrote = true ∧ Countable l.relay.hub))
  | .act (.at _ .flush) | .act (.at _ .startWriter) | .act (.at _ .take)
  | .act (.at _ (.write _)) | .act (.at _ .drained) | .act (.at _ .sendLive)
  | .act (.at _ (.ack _)) | .act (.at _ .forward) | .act (.at _ .readError)
  | .act (.at _ .unregister) | .act (.at _ .closeOut) | .act (.at _ .closeConn)
  | .act (.at _ .expire) | .act (.connect ..) => inferInstanceAs (Decidable True)
  | .restart _ readable _ => inferInstanceAs (Decidable (readable = true ∧ l.relay.hub.path ≠ ""))

/-- The places an id can be in. -/
inductive Place where
  | past
  | channel (c : ConnId)
  | hands (c : ConnId)
  | waiting (key : String)
  deriving DecidableEq

/-- The queue a restart would start from. -/
def stored (s : Relay) : String → List QueuedEnvelope :=
  match s.disk with
  | some p => p.queue
  | none => s.hub.queue

/-- The ids at a place. -/
def held (l : Ledger) : Place → List String
  | .past => l.past
  | .channel c => sentOn l.relay c
  | .hands c => inHandsOf l.relay c
  | .waiting key => (stored l.relay key).map (·.env.id)

/-! ## The invariant -/

/-- No id is anywhere twice, and the file knows the counter. -/
structure Unique (l : Ledger) : Prop where
  apart : Apart (Upto l.relay.hub.nextID) (held l)
  waiting : ∀ key, (l.relay.hub.queue key).Sublist (stored l.relay key)
  unwritten : l.relay.disk = none → l.relay.hub.path = "" ∨ l.relay.hub.nextID = 0
  written : ∀ p, l.relay.disk = some p → l.relay.hub.path ≠ "" ∧ p.nextID = l.relay.hub.nextID
  submitted : (l.relay.submissions.map (·.id)).Nodup
  numbered : ∀ sub ∈ l.relay.submissions, Upto l.relay.hub.nextID sub.id

variable {l : Ledger} {s s' : Relay} {c : ConnId} {cl : Client}

theorem sentOn_found (found : s.clients c = some cl) :
    sentOn s c = (deliveries cl.placed).map (·.id) := by
  simp [sentOn, found]

theorem inHandsOf_found (found : s.clients c = some cl) :
    inHandsOf s c = (lane cl.pc).map (·.id) := by
  simp [inHandsOf, found]

/-- What a change of one connection's record does to the ids on the channels. -/
theorem sentOn_modify (f : Client → Client) (found : s.clients c = some cl) (d : ConnId) :
    sentOn (s.modify c f) d =
      if d = c then (deliveries (f cl).placed).map (·.id) else sentOn s d := by
  by_cases own : d = c
  · simp [sentOn, modify_clients, found, own]
  · simp [sentOn, modify_clients, own]

theorem inHandsOf_modify (f : Client → Client) (found : s.clients c = some cl) (d : ConnId) :
    inHandsOf (s.modify c f) d = if d = c then (lane (f cl).pc).map (·.id) else inHandsOf s d := by
  by_cases own : d = c
  · simp [inHandsOf, modify_clients, found, own]
  · simp [inHandsOf, modify_clients, own]

/-- Where a handler stands says nothing about the channels. -/
theorem sentOn_goto (pc : Pc) (found : s.clients c = some cl) (d : ConnId) :
    sentOn (s.goto c pc) d = sentOn s d := by
  rw [Relay.goto, sentOn_modify _ found]
  split
  · next own => rw [own, sentOn_found found]
  · rfl

/-- Changing a connection without placing anything on its channel, its handler
taking nothing new into its hands. -/
theorem Unique.modify (unique : Unique { l with relay := s }) (f : Client → Client)
    (found : s.clients c = some cl) (placed : deliveries (f cl).placed = deliveries cl.placed)
    (hands : (lane (f cl).pc).Sublist (lane cl.pc)) :
    Unique { l with relay := s.modify c f } := by
  have fewer : ∀ place, (held { l with relay := s.modify c f } place).Subperm
      (held { l with relay := s } place) := by
    intro place
    cases place with
    | past => exact List.Subperm.refl _
    | channel d =>
      simp only [held, sentOn_modify f found, placed]
      split
      · next own => rw [own, sentOn_found found]
      · exact List.Subperm.refl _
    | hands d =>
      simp only [held, inHandsOf_modify f found]
      split
      · next own =>
        rw [own, inHandsOf_found found]
        exact (hands.map _).subperm
      · exact List.Subperm.refl _
    | waiting key => exact List.Subperm.refl _
  exact ⟨unique.apart.shrink (fun _ upto => upto) fewer, unique.waiting, unique.unwritten,
    unique.written, unique.submitted, unique.numbered⟩

/-- Queues may lose entries; histories and push tokens are not part of it. -/
theorem Unique.trim (unique : Unique { l with relay := s }) (clients : s'.clients = s.clients)
    (fewer : ∀ key, (s'.hub.queue key).Sublist (s.hub.queue key)) (path : s'.hub.path = s.hub.path)
    (nextID : s'.hub.nextID = s.hub.nextID) (disk : s'.disk = s.disk)
    (submissions : s'.submissions = s.submissions) : Unique { l with relay := s' } := by
  have stored_fewer (key : String) : (stored s' key).Sublist (stored s key) := by
    simp only [stored, disk]
    cases s.disk with
    | none => exact fewer key
    | some p => exact List.Sublist.refl _
  refine ⟨?_, ?_, ?_, ?_, ?_, ?_⟩
  · rw [nextID]
    refine unique.apart.shrink (fun _ upto => upto) ?_
    intro place
    cases place with
    | past => exact List.Subperm.refl _
    | channel d =>
      simp only [held, sentOn, clients]
      exact List.Subperm.refl _
    | hands d =>
      simp only [held, inHandsOf, clients]
      exact List.Subperm.refl _
    | waiting key => exact ((stored_fewer key).map _).subperm
  · intro key
    have before := unique.waiting key
    simp only [stored, disk] at before ⊢
    cases written : s.disk with
    | none => exact List.Sublist.refl _
    | some p =>
      rw [written] at before
      exact (fewer key).trans before
  · rw [disk, path, nextID]
    exact unique.unwritten
  · rw [disk, path, nextID]
    exact unique.written
  · rw [submissions]
    exact unique.submitted
  · rw [submissions, nextID]
    exact unique.numbered

/-- A frame that carries no envelope may be put anywhere. -/
theorem Unique.send {target : ConnId} {msg : RelayMessage} (unique : Unique { l with relay := s })
    (other : msg.kind ≠ "deliver") (sent : s.send target msg = some s') :
    Unique { l with relay := s' } := by
  obtain ⟨clt, found, _, ⟨_, rfl⟩ | ⟨_, rfl⟩⟩ := send_cases sent
  · refine unique.modify _ found ?_ (List.Sublist.refl _)
    simp [Client.accept, deliveries_other other]
  · exact unique

/-- An id leaves a handler's hands for a channel. -/
theorem Unique.hand_over {target : ConnId} {env : Envelope}
    (unique : Unique { l with relay := s }) (pc : Pc) (found : s.clients c = some cl)
    (hands : lane cl.pc = env :: lane pc) (sent : s.send target (deliver env) = some s') :
    Unique { l with relay := s'.goto c pc } := by
  obtain ⟨clt, target_found, _, ⟨_, rfl⟩ | ⟨_, rfl⟩⟩ := send_cases sent
  · obtain ⟨cl', found', _⟩ := send_found sent found
    have channels (d : ConnId) :
        sentOn ((s.modify target (·.accept (deliver env))).goto c pc) d =
          if d = target then sentOn s d ++ [env.id] else sentOn s d := by
      rw [sentOn_goto _ found', sentOn_modify _ target_found]
      split
      · next own =>
        rw [own, sentOn_found target_found]
        simp [Client.accept]
      · rfl
    have handlers (d : ConnId) :
        inHandsOf ((s.modify target (·.accept (deliver env))).goto c pc) d =
          if d = c then (lane pc).map (·.id) else inHandsOf s d := by
      rw [Relay.goto, inHandsOf_modify _ found', inHandsOf_modify _ target_found]
      split
      · rfl
      · split
        · next own => rw [own, inHandsOf_found target_found]; rfl
        · rfl
    refine ⟨?_, unique.waiting, unique.unwritten, unique.written, unique.submitted,
      unique.numbered⟩
    refine unique.apart.move (i := .hands c) (j := .channel target) (by simp) ?_ ?_
    · simp only [held, channels, handlers, ↓reduceIte, inHandsOf_found found, hands]
      apply List.Perm.subperm
      rw [← List.append_assoc]
      exact List.perm_append_singleton _ _
    · intro place elsewhere other
      cases place with
      | past => exact List.Subperm.refl _
      | channel d =>
        simp only [held, channels, if_neg (show d ≠ target by simpa using other)]
        exact List.Subperm.refl _
      | hands d =>
        simp only [held, handlers, if_neg (show d ≠ c by simpa using elsewhere)]
        exact List.Subperm.refl _
      | waiting key => exact List.Subperm.refl _
  · refine unique.modify _ found rfl ?_
    rw [hands]
    exact List.sublist_cons_self _ _

/-- The relay after a section of the hub that wrote the file, and a move of the
handler that was in it. -/
def committed (s : Relay) (hub : Hub) (submissions : List Submission) (c : ConnId) (pc : Pc) :
    Relay :=
  { s with hub := hub, disk := hub.persistLocked true s.disk, submissions := submissions }.goto c pc

/-- Once the file is written it holds the queue, if there is a file at all. -/
theorem stored_committed {hub : Hub} {submissions : List Submission} {pc : Pc}
    (unique : Unique { l with relay := s }) (path : hub.path = s.hub.path) :
    stored (committed s hub submissions c pc) = hub.queue := by
  simp only [stored, committed, Relay.goto, Relay.modify, Hub.persistLocked, path]
  by_cases none : s.hub.path = ""
  · cases written : s.disk with
    | none => simp [none]
    | some p => exact absurd none (unique.written p written).1
  · simp [none]

/-- A section that writes the file keeps the invariant if it keeps the ids apart. -/
theorem Unique.commit {hub : Hub} {submissions : List Submission} {pc : Pc}
    (unique : Unique { l with relay := s }) (path : hub.path = s.hub.path)
    (apart : Apart (Upto hub.nextID)
      (held { l with relay := committed s hub submissions c pc }))
    (submitted : (submissions.map (·.id)).Nodup)
    (numbered : ∀ sub ∈ submissions, Upto hub.nextID sub.id) :
    Unique { l with relay := committed s hub submissions c pc } := by
  refine ⟨apart, ?_, ?_, ?_, submitted, numbered⟩
  · intro key
    rw [stored_committed unique path]
    exact List.Sublist.refl _
  · simp only [committed, Relay.goto, Relay.modify, Hub.persistLocked, path]
    intro unwritten
    by_cases none : s.hub.path = ""
    · exact .inl none
    · simp [none] at unwritten
  · simp only [committed, Relay.goto, Relay.modify, Hub.persistLocked, path]
    intro p written
    by_cases none : s.hub.path = ""
    · simp only [none, ↓reduceIte] at written
      exact absurd none (unique.written p written).1
    · simp only [none, ↓reduceIte, Option.some.injEq] at written
      exact ⟨none, by rw [← written]⟩

/-- The ids of a ledger, but for what one handler holds and what is queued. -/
def regrouped (l : Ledger) (c : ConnId) (hands : List String)
    (queue : String → List QueuedEnvelope) : Place → List String
  | .past => l.past
  | .channel d => sentOn l.relay d
  | .hands d => if d = c then hands else inHandsOf l.relay d
  | .waiting key => (queue key).map (·.env.id)

theorem held_committed {hub : Hub} {submissions : List Submission} {pc : Pc}
    (unique : Unique { l with relay := s }) (found : s.clients c = some cl)
    (path : hub.path = s.hub.path) :
    held { l with relay := committed s hub submissions c pc } =
      regrouped { l with relay := s } c ((lane pc).map (·.id)) hub.queue := by
  have found' : { s with hub := hub, disk := hub.persistLocked true s.disk,
                         submissions := submissions : Relay }.clients c = some cl := found
  funext place
  cases place with
  | past => rfl
  | channel d => exact sentOn_goto pc found' d
  | hands d => exact inHandsOf_modify _ found' d
  | waiting key =>
    simp only [held, stored_committed unique path]
    rfl

/-- One more submission, under the number just counted. -/
theorem Unique.submit (unique : Unique { l with relay := s }) (countable : Countable s.hub)
    (sub : Submission) (stamped : sub.id = envelopeID s.hub.count.nextID) :
    ((sub :: s.submissions).map (·.id)).Nodup ∧
      ∀ sub' ∈ sub :: s.submissions, Upto s.hub.count.nextID sub'.id := by
  refine ⟨?_, ?_⟩
  · rw [List.map_cons, List.nodup_cons]
    refine ⟨?_, unique.submitted⟩
    intro member
    obtain ⟨older, before, same⟩ := List.mem_map.mp member
    apply countable.new
    rw [← stamped, ← same]
    exact unique.numbered older before
  · intro sub' member
    rcases List.mem_cons.mp member with rfl | before
    · exact ⟨_, UInt64.le_refl _, stamped⟩
    · exact (unique.numbered sub' before).mono countable.le

/-- `route` towards a connection: the new id is in the handler's hands. -/
theorem Unique.route_live {target : ConnId} {env : Envelope} {clientRef : String}
    {sub : Submission} (unique : Unique { l with relay := s }) (countable : Countable s.hub)
    (found : s.clients c = some cl) (pc : cl.pc = .reading)
    (stamped : sub.id = envelopeID s.hub.count.nextID) :
    Unique { l with relay := committed s s.hub.count (sub :: s.submissions) c
                      (.routing target (s.hub.count.stamp env) clientRef) } := by
  obtain ⟨submitted, numbered⟩ := unique.submit countable sub stamped
  have path : s.hub.count.path = s.hub.path := rfl
  refine unique.commit path ?_ submitted numbered
  rw [held_committed unique found path]
  have empty : inHandsOf s c = [] := by rw [inHandsOf_found found, pc]; rfl
  refine unique.apart.add (i := .hands c) (fun _ upto => upto.mono countable.le)
    ⟨_, UInt64.le_refl _, rfl⟩ countable.new ?_ ?_
  · simp only [regrouped, held, ↓reduceIte, empty, lane, List.map_cons, List.map_nil, stamp_id]
    exact List.Subperm.refl _
  · intro place other
    cases place with
    | past => exact List.Subperm.refl _
    | channel d => exact List.Subperm.refl _
    | hands d =>
      simp only [regrouped, if_neg (show d ≠ c by simpa using other)]
      exact List.Subperm.refl _
    | waiting key => exact ((unique.waiting key).map _).subperm

/-- `route` towards nobody: the new id joins its queue. -/
theorem Unique.route_offline {env : Envelope} {enqueuedAt now : Int} {sub : Submission} {pc : Pc}
    (unique : Unique { l with relay := s }) (countable : Countable s.hub)
    (found : s.clients c = some cl) (empty : lane pc = [])
    (stamped : sub.id = envelopeID s.hub.count.nextID) :
    Unique { l with relay := committed s (s.hub.enqueue env enqueuedAt now)
                      (sub :: s.submissions) c pc } := by
  obtain ⟨submitted, numbered⟩ := unique.submit countable sub stamped
  have path : (s.hub.enqueue env enqueuedAt now).path = s.hub.path := rfl
  refine unique.commit path ?_ submitted numbered
  rw [held_committed unique found path]
  refine unique.apart.add (i := .waiting env.key) (fun _ upto => upto.mono countable.le)
    ⟨_, UInt64.le_refl _, rfl⟩ countable.new ?_ ?_
  · have queued : (kept now (s.hub.queue env.key ++ [⟨s.hub.count.stamp env, enqueuedAt⟩])).Sublist
        (stored s env.key ++ [⟨s.hub.count.stamp env, enqueuedAt⟩]) :=
      (kept_sublist _ _).trans ((unique.waiting env.key).append (List.Sublist.refl _))
    simp only [regrouped, held, Hub.enqueue, Function.update_self]
    refine (queued.map _).subperm.trans (List.Perm.subperm ?_)
    rw [List.map_append]
    exact List.perm_append_singleton _ _
  · intro place other
    cases place with
    | past => exact List.Subperm.refl _
    | channel d => exact List.Subperm.refl _
    | hands d =>
      simp only [regrouped, held, empty, List.map_nil]
      split
      · exact List.nil_subperm
      · exact List.Subperm.refl _
    | waiting key =>
      have elsewhere : key ≠ env.key := fun same => other (same ▸ rfl)
      simp only [regrouped, held, Hub.enqueue, Function.update_of_ne elsewhere]
      exact ((unique.waiting key).map _).subperm

/-- `register` takes a queue into the hands of the connection's handler. -/
theorem Unique.register {now : Int} (unique : Unique { l with relay := s })
    (found : s.clients c = some cl) (pc : cl.pc = .registering) :
    Unique
      ⟨{ s with
          hub := (s.hub.register c cl.routeKey now true s.disk).1
          disk := (s.hub.register c cl.routeKey now true s.disk).2.1 : Relay }.goto c
        (.flushing (kept now (s.hub.queue cl.routeKey))), l.past⟩ := by
  obtain ⟨drained, -⟩ := register_eq s.hub c cl.routeKey now true s.disk
  have shorter (key : String) : (Function.update s.hub.queue cl.routeKey [] key).Sublist
      (s.hub.queue key) := by
    rw [Function.update_apply]
    split
    · exact List.nil_sublist _
    · exact List.Sublist.refl _
  rcases register_persist s.hub c cl.routeKey now true s.disk with ⟨nothing, same⟩ | written
  · -- nothing is left to flush: the file stays, and so may the expired entries in it
    rw [same, nothing, drained]
    have taken := unique.modify (fun cl => { cl with pc := .flushing [] }) found rfl
      (List.nil_sublist _)
    exact taken.trim rfl shorter rfl rfl rfl rfl
  · rw [written, drained]
    let taken : Hub :=
      { s.hub with
        conns := Function.update s.hub.conns cl.routeKey (some c)
        queue := Function.update s.hub.queue cl.routeKey [] }
    have path : taken.path = s.hub.path := rfl
    refine unique.commit path ?_ unique.submitted unique.numbered
    rw [held_committed unique found path]
    refine unique.apart.move (i := .hands c) (j := .waiting cl.routeKey) (by simp) ?_ ?_
    · have flushed : (kept now (s.hub.queue cl.routeKey)).Sublist (stored s cl.routeKey) :=
        (kept_sublist now _).trans (unique.waiting cl.routeKey)
      have emptied : taken.queue cl.routeKey = [] := Function.update_self ..
      simp only [regrouped, held, ↓reduceIte, emptied, List.map_nil, lane, List.map_map,
        List.append_nil, inHandsOf_found found, pc, List.nil_append]
      exact (flushed.map _).subperm
    · intro place elsewhere other
      cases place with
      | past => exact List.Subperm.refl _
      | channel d => exact List.Subperm.refl _
      | hands d =>
        simp only [regrouped, if_neg (show d ≠ c by simpa using elsewhere)]
        exact List.Subperm.refl _
      | waiting key => exact (((shorter key).trans (unique.waiting key)).map _).subperm

/-- A new connection has nothing on its channel and nothing in its hands. -/
theorem Unique.connect (unique : Unique { l with relay := s }) (userID : String)
    (deviceID : Int64) : Unique { l with relay := s.connect userID deviceID } := by
  refine ⟨unique.apart.shrink (fun _ upto => upto) ?_, unique.waiting, unique.unwritten,
    unique.written, unique.submitted, unique.numbered⟩
  intro place
  cases place with
  | past => exact List.Subperm.refl _
  | channel d =>
    by_cases own : d = s.nextConn
    · have empty : sentOn (s.connect userID deviceID) d = [] := by
        rw [own, sentOn_found (connect_new s userID deviceID)]
        rfl
      simp only [held, empty]
      exact List.nil_subperm
    · simp only [held, sentOn, connect_ne own]
      exact List.Subperm.refl _
  | hands d =>
    by_cases own : d = s.nextConn
    · have empty : inHandsOf (s.connect userID deviceID) d = [] := by
        rw [own, inHandsOf_found (connect_new s userID deviceID)]
        rfl
      simp only [held, empty]
      exact List.nil_subperm
    · simp only [held, inHandsOf, connect_ne own]
      exact List.Subperm.refl _
  | waiting key => exact List.Subperm.refl _

/-- A handler that is about to send something else than an envelope. -/
theorem Unique.goto (unique : Unique { l with relay := s }) (found : s.clients c = some cl)
    (pc : Pc) (empty : lane pc = []) : Unique { l with relay := s.goto c pc } := by
  refine unique.modify _ found rfl ?_
  rw [empty]
  exact List.nil_sublist _

/-- Sending something else than an envelope and moving on. -/
theorem Unique.sent {target : ConnId} {msg : RelayMessage} (unique : Unique { l with relay := s })
    (found : s.clients c = some cl) (other : msg.kind ≠ "deliver")
    (sent : s.send target msg = some s') (pc : Pc) (empty : lane pc = []) :
    Unique { l with relay := s'.goto c pc } := by
  obtain ⟨cl', found', -⟩ := send_found sent found
  exact (unique.send other sent).goto found' pc empty

/-- No step of the relay process puts an id in two places. -/
theorem step_unique {a : Action} (sound : Sound s) (unique : Unique { l with relay := s })
    (reliable : Reliable { l with relay := s } (.act a)) (moved : s.step a = some s') :
    Unique { l with relay := s' } := by
  cases step_moves moved with
  | connect userID deviceID => exact unique.connect userID deviceID
  | register found pc =>
    cases reliable
    exact (unique.register found pc).trim rfl (fun _ => List.Sublist.refl _) rfl rfl rfl rfl
  | flush found pc sent => exact unique.hand_over _ found (by rw [pc]; rfl) sent
  | flushPanic found pc _ => exact unique.goto found _ rfl
  | startWriter found pc => exact unique.modify _ found rfl (List.nil_sublist _)
  | take found _ _ => exact unique.modify _ found rfl (List.Sublist.refl _)
  | write found _ => exact unique.modify _ found rfl (List.Sublist.refl _)
  | writeError found _ => exact unique.modify _ found rfl (List.Sublist.refl _)
  | drained found _ _ _ => exact unique.modify _ found rfl (List.Sublist.refl _)
  | ignore _ _ => exact unique
  | registerPush _ _ => exact unique.trim rfl (fun _ => List.Sublist.refl _) rfl rfl rfl rfl
  | routeLive found pc claimed connected =>
    obtain ⟨rfl, countable⟩ := reliable
    exact unique.route_live countable found pc rfl
  | routeOffline found pc claimed offline =>
    obtain ⟨rfl, countable⟩ := reliable
    exact (unique.route_offline countable found rfl rfl).trim rfl (fun _ => List.Sublist.refl _)
      rfl rfl rfl rfl
  | receipt found pc status connected => exact unique.goto found _ rfl
  | sendLive found pc sent =>
    next c cl target env clientRef s₁ =>
    have acked := unique.hand_over (.acking env.id clientRef) found (by rw [pc]; rfl) sent
    exact acked.trim rfl (fun _ => List.Sublist.refl _) rfl rfl rfl rfl
  | sendLivePanic found pc _ => exact unique.goto found _ rfl
  | ack found pc kind sent => exact unique.sent found (by rw [kind]; decide) sent _ rfl
  | ackPanic found pc _ => exact unique.goto found _ rfl
  | forward found pc sent =>
    have status := sound.handlers _ _ found
    simp only [HandlerSound, pc] at status
    exact unique.sent found (by rw [status]; decide) sent _ rfl
  | forwardPanic found pc _ => exact unique.goto found _ rfl
  | readError found pc => exact unique.goto found _ rfl
  | unregister found pc =>
    refine (unique.goto found _ rfl).trim rfl ?_ ?_ ?_ rfl rfl
    · intro key
      simp only [Relay.goto, Relay.modify, unregister_queue]
      exact List.Sublist.refl _
    · simp [Relay.goto, Relay.modify]
    · simp [Relay.goto, Relay.modify]
  | closeOut found pc _ => exact unique.modify _ found rfl (List.nil_sublist _)
  | closeTwice found pc _ => exact unique.goto found _ rfl
  | closeConn found pc => exact unique.modify _ found rfl (List.nil_sublist _)
  | expire found => exact unique.modify _ found rfl (List.Sublist.refl _)

/-- Remembering the placements changes nothing about the relay. -/
theorem journal_relay {ok : Ledger → Event → Prop} (reached : journal.Reached ok l) :
    service.Reachable l.relay := by
  refine reached.invariant (fun l => service.Reachable l.relay) ?_ ?_
  · exact fun l started => .start started.1
  · intro l event l' before _ moved
    obtain ⟨s', stepped, rfl⟩ := Option.map_eq_some_iff.mp moved
    have after := Machine.Reached.step before trivial stepped
    cases event with
    | act a => exact after
    | restart pusher readable now => exact after

/-- The channels of one process, each with its own ids. -/
theorem nodup_sent {issued : String → Prop} (apart : Apart issued (held l)) :
    (sent l.relay).Nodup := by
  refine List.nodup_flatMap.mpr ⟨fun c _ => apart.nodup (.channel c), ?_⟩
  refine (List.nodup_range (n := l.relay.nextConn)).imp ?_
  intro c d other id first second
  have same := apart.unique (.channel c) (.channel d) id first second
  cases same
  exact other rfl

/-- An id placed in this process is on one of its channels. -/
theorem mem_sent {id : String} (member : id ∈ sent s) : ∃ c, id ∈ sentOn s c := by
  obtain ⟨c, _, inside⟩ := List.mem_flatMap.mp member
  exact ⟨c, inside⟩

theorem nodup_placements {issued : String → Prop} (apart : Apart issued (held l)) :
    l.placements.Nodup := by
  refine List.nodup_append.mpr ⟨apart.nodup .past, nodup_sent apart, ?_⟩
  rintro id before id' after rfl
  obtain ⟨c, inside⟩ := mem_sent after
  have same := apart.unique .past (.channel c) id before inside
  cases same

/-- What a restart reads back is the queue it was left with. -/
theorem boot_stored {path : String} (named : path ≠ "") (pusher : Bool)
    (disk : Option PersistedHub) (now : Int) :
    (boot path pusher disk now).path = path ∧
      (boot path pusher disk now).nextID = (disk.map (·.nextID)).getD 0 ∧
      ∀ key, ((boot path pusher disk now).queue key).Sublist
        ((disk.map (·.queue key)).getD []) := by
  unfold boot
  rw [if_neg named]
  cases disk with
  | none => exact ⟨rfl, rfl, fun _ => List.Sublist.refl _⟩
  | some p => exact ⟨rfl, rfl, fun key => kept_sublist now (p.queue key)⟩

/-- Where an id was before a restart that finds it afterwards. -/
inductive Origin (l : Ledger) (id : String) : Place → Prop where
  | past : id ∈ held l .past → Origin l id .past
  | channel (c : ConnId) : id ∈ held l (.channel c) → Origin l id .past
  | waiting (key : String) : id ∈ held l (.waiting key) → Origin l id (.waiting key)

/-- Two places of an id after a restart come from two places before it. -/
theorem Origin.unique {issued : String → Prop} {id : String} {i j : Place}
    (apart : Apart issued (held l)) (first : Origin l id i) (second : Origin l id j) : i = j := by
  cases first with
  | past atPast =>
    cases second with
    | past => rfl
    | channel => rfl
    | waiting key atQueue => cases apart.unique .past (.waiting key) id atPast atQueue
  | channel c atChannel =>
    cases second with
    | past => rfl
    | channel => rfl
    | waiting key atQueue => cases apart.unique (.channel c) (.waiting key) id atChannel atQueue
  | waiting key atQueue =>
    cases second with
    | past atPast => cases apart.unique .past (.waiting key) id atPast atQueue
    | channel c atChannel => cases apart.unique (.channel c) (.waiting key) id atChannel atQueue
    | waiting key' atQueue' => exact apart.unique _ _ id atQueue atQueue'

/-- A restart moves every id that was on a channel to the past, drops what the
handlers held, and finds in the file the queue it would have found before. -/
theorem restart_unique {pusher : Bool} {now : Int} (unique : Unique l)
    (named : l.relay.hub.path ≠ "")
    (restarted : service.step l.relay (.restart pusher true now) = some s') :
    Unique { relay := s', past := l.placements } := by
  cases restarted
  obtain ⟨path, counter, queues⟩ := boot_stored named pusher l.relay.disk now
  have numbers : (boot l.relay.hub.path pusher l.relay.disk now).nextID = l.relay.hub.nextID := by
    rw [counter]
    cases disk : l.relay.disk with
    | none => exact ((unique.unwritten disk).resolve_left named).symm
    | some p => exact (unique.written p disk).2
  let restarted : Relay :=
    { started (boot l.relay.hub.path pusher l.relay.disk now) l.relay.disk with
      submissions := l.relay.submissions
      accepted := l.relay.accepted
      pruned := l.relay.pruned }
  have read (key : String) : (stored restarted key).Sublist (stored l.relay key) := by
    have queue := queues key
    simp only [stored, restarted, started]
    cases disk : l.relay.disk with
    | none =>
      rw [disk] at queue
      exact queue.trans (List.nil_sublist _)
    | some p => exact List.Sublist.refl _
  have origin (place : Place) (id : String)
      (member : id ∈ held { relay := restarted, past := l.placements } place) :
      Origin l id place := by
    cases place with
    | past =>
      rcases List.mem_append.mp member with before | after
      · exact .past before
      · obtain ⟨c, inside⟩ := mem_sent after
        exact .channel c inside
    | channel c => cases member
    | hands c => cases member
    | waiting key => exact .waiting key (((read key).map _).subset member)
  have count : restarted.hub.nextID = l.relay.hub.nextID := numbers
  have file : restarted.hub.path = l.relay.hub.path := path
  show Unique { relay := restarted, past := l.placements }
  refine ⟨⟨?_, ?_, ?_⟩, ?_, ?_, ?_, unique.submitted, ?_⟩
  · intro place
    cases place with
    | past => exact nodup_placements unique.apart
    | channel c => exact List.nodup_nil
    | hands c => exact List.nodup_nil
    | waiting key => exact (unique.apart.nodup (.waiting key)).sublist ((read key).map _)
  · exact fun i j id first second => (origin i id first).unique unique.apart (origin j id second)
  · intro place id member
    rw [count]
    cases origin place id member with
    | past before => exact unique.apart.allowed _ id before
    | channel c before => exact unique.apart.allowed _ id before
    | waiting key before => exact unique.apart.allowed _ id before
  · intro key
    have queue : (restarted.hub.queue key).Sublist _ := queues key
    have same : restarted.disk = l.relay.disk := rfl
    simp only [stored, same]
    cases disk : l.relay.disk with
    | none => exact List.Sublist.refl _
    | some p =>
      rw [disk] at queue
      exact queue
  · intro unwritten
    rw [count]
    exact .inr ((unique.unwritten unwritten).resolve_left named)
  · intro p written
    rw [count, file]
    exact unique.written p written
  · rw [count]
    exact unique.numbered

theorem started_unique (l : Ledger) (start : journal.start l) : Unique l := by
  obtain ⟨⟨path, pusher, begun⟩, fresh⟩ := start
  obtain ⟨s, past⟩ := l
  cases begun
  cases fresh
  refine ⟨⟨?_, ?_, ?_⟩, fun _ => List.Sublist.refl _, fun _ => .inr rfl, ?_, List.nodup_nil, ?_⟩
  · intro place
    cases place <;> exact List.nodup_nil
  · intro i j id member
    cases i <;> cases member
  · intro i id member
    cases i <;> cases member
  · intro p written
    cases written
  · intro sub member
    cases member

/-- The invariant holds in every state of the runs that meet the assumptions. -/
theorem reached_unique (reached : journal.Reached Reliable l) : Unique l := by
  have sound_before (l : Ledger) (reached : journal.Reached Reliable l) : Sound l.relay :=
    (reachable_sound (journal_relay reached)).2
  refine reached.invariant_under Unique sound_before started_unique ?_
  intro l event l' sound unique reliable moved
  obtain ⟨s', stepped, rfl⟩ := Option.map_eq_some_iff.mp moved
  cases event with
  | act a => exact step_unique sound unique reliable stepped
  | restart pusher readable now =>
    obtain ⟨rfl, named⟩ := reliable
    exact restart_unique unique named stepped

/-- **At-most-once delivery.** In every run whose file writes succeed, whose
restarts read the file back and whose counter is not at its end, no two `route`
calls are given the same id, and no id is placed on a channel twice: not on one
channel, not on two, not before and after a restart. -/
theorem envelopes_are_placed_at_most_once (reached : journal.Reached Reliable l) :
    (l.relay.submissions.map (·.id)).Nodup ∧ l.placements.Nodup := by
  have unique := reached_unique reached
  exact ⟨unique.submitted, nodup_placements unique.apart⟩

def letterToBob : RelayMessage where
  kind := "send"
  envelope := some
    { id := "", recipientID := "bob", recipientDevice := 1, senderID := "", senderDevice := 0
      type := 2, ciphertext := "AAEC", timestamp := 0 }

/-- The relay restarts with two letters queued, crashes between the two of them
while it flushes, and is then sent a third. -/
def crashWhileFlushing : List Event :=
  [ .act (.connect "alice" 1), .act (.at 0 (.register 0 true)), .act (.at 0 .startWriter),
    .act (.at 0 (.frame (some letterToBob) 1 1 true)), .act (.at 0 (.ack 1)),
    .act (.at 0 (.frame (some letterToBob) 2 2 true)),
    .restart false true 3,
    .act (.connect "bob" 1), .act (.at 0 (.register 4 true)), .act (.at 0 .flush),
    .restart false true 5,
    .act (.connect "bob" 1), .act (.at 0 (.register 6 true)), .act (.at 0 .startWriter),
    .act (.connect "alice" 1), .act (.at 1 (.register 6 true)), .act (.at 1 .startWriter),
    .act (.at 1 (.frame (some letterToBob) 7 7 true)), .act (.at 1 .sendLive) ]

/-- The first letter is not flushed again, the one the crash overtook is lost,
and the third is placed under an id of its own. -/
theorem crash_while_flushing_repeats_nothing : ∃ l, journal.Reached Reliable l ∧
    l.placements = ["env-1", "env-3"] ∧
    l.relay.submissions.map (·.id) = ["env-3", "env-2", "env-1"] ∧
    (l.relay.submissions.map (·.id)).Nodup ∧ l.placements.Nodup := by
  let begun : Ledger := { relay := started (newHub "relay.json" false) none }
  have observed : (journal.checkedRun Reliable begun crashWhileFlushing).map
      (fun l => (l.placements, l.relay.submissions.map (·.id))) =
        some (["env-1", "env-3"], ["env-3", "env-2", "env-1"]) := by decide +kernel
  have start : journal.start begun := ⟨⟨"relay.json", false, rfl⟩, rfl⟩
  obtain ⟨l, reached, seen⟩ := Machine.reached_of_observed observed (.start start)
  obtain ⟨placed, submitted⟩ := Prod.mk.inj seen
  exact ⟨l, reached, placed, submitted, envelopes_are_placed_at_most_once reached⟩

end Hwfa.RelayIdentity
