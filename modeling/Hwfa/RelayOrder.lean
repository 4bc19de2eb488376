import Hwfa.RelayIdentity

/-!
The order in which envelopes reach one connection's channel.

`route` numbers envelopes under the lock and sends them after it has released
the lock, and `register` publishes a connection before it has flushed the queue
it drained.  Between the number and the channel an envelope can therefore be
overtaken, by a later one whose sender is quicker.  `InTurn` excludes exactly
these steps; the invariant `InOrder` says what then holds of every envelope that
may still reach a connection.
-/

namespace Hwfa.RelayOrder

open Hwfa.Machines Hwfa.RelayEnvelope Hwfa.RelayHub Hwfa.RelayProcess
open Hwfa.RelayWiring Hwfa.RelayAddressing Hwfa.RelayIdentity

/-- The first id was given out before the second. -/
def Before (first second : String) : Prop :=
  ∃ m n, first = envelopeID m ∧ second = envelopeID n ∧ m < n

theorem not_before_self (id : String) : ¬ Before id id := by
  rintro ⟨m, n, rfl, same, less⟩
  rw [envelopeID_injective same] at less
  exact UInt64.lt_irrefl _ less

/-- The ids a connection's channel has accepted, in this order. -/
def channelled (cl : Client) : List String := (deliveries cl.placed).map (·.id)

/-- The ids left to flush. -/
def toFlush : Pc → List String
  | .flushing pending => pending.map (·.env.id)
  | _ => []

/-- The handler routes an envelope with this id to the target. -/
def Routes (s : Relay) (c target : ConnId) (id : String) : Prop :=
  ∃ cl env clientRef, s.clients c = some cl ∧ cl.pc = .routing target env clientRef ∧ env.id = id

/-- The frame a `route` is about to send would be put on the channel. -/
def Accepts (s : Relay) (target : ConnId) : Prop :=
  ∃ clt, s.clients target = some clt ∧ clt.outClosed = false ∧ clt.out.length < outCapacity

/-- Nothing earlier is on its way to the target: its own flush is over, and no
other handler has an earlier envelope for it in its hands. -/
def NoneAhead (s : Relay) (target : ConnId) (id : String) : Prop :=
  (∀ clt, s.clients target = some clt → toFlush clt.pc = []) ∧
    ∀ d id', Routes s d target id' → ¬ Before id' id

/-- No envelope overtakes another, and the counter does not wrap around. -/
def InTurn (s : Relay) : Event → Prop
  | .act (.at c .sendLive) =>
    ∀ target id, Routes s c target id → Accepts s target → NoneAhead s target id
  | .act (.at _ (.frame ..)) => Countable s.hub
  | _ => True

/-- In order, and given out already. -/
def Ascending (n : UInt64) (ids : List String) : Prop := ids.Pairwise Before ∧ ∀ id ∈ ids, Upto n id

theorem Ascending.sublist {n : UInt64} {ids ids' : List String} (ascending : Ascending n ids)
    (fewer : ids'.Sublist ids) : Ascending n ids' :=
  ⟨ascending.1.sublist fewer, fun id member => ascending.2 id (fewer.subset member)⟩

theorem Ascending.mono {m n : UInt64} {ids : List String} (ascending : Ascending m ids)
    (le : m ≤ n) : Ascending n ids :=
  ⟨ascending.1, fun id member => (ascending.2 id member).mono le⟩

theorem ascending_nil (n : UInt64) : Ascending n [] := ⟨List.Pairwise.nil, by simp⟩

/-- What has been given out is before what is given out next. -/
theorem before_next {h : Hub} {id : String} (countable : Countable h)
    (upto : Upto h.nextID id) : Before id (envelopeID h.count.nextID) := by
  obtain ⟨m, below, rfl⟩ := upto
  exact ⟨m, _, rfl, rfl, UInt64.lt_of_le_of_lt below countable.lt⟩

theorem Ascending.snoc {n : UInt64} {ids : List String} {id : String} (ascending : Ascending n ids)
    (upto : Upto n id) (last : ∀ id' ∈ ids, Before id' id) : Ascending n (ids ++ [id]) := by
  refine ⟨List.pairwise_append.mpr ⟨ascending.1, List.pairwise_singleton _ _, ?_⟩, ?_⟩
  · intro id' member other single
    rw [List.mem_singleton.mp single]
    exact last id' member
  · intro id' member
    rcases List.mem_append.mp member with before | new
    · exact ascending.2 id' before
    · rw [List.mem_singleton.mp new]
      exact upto

/-- The ids of a queue. -/
def ids (q : List QueuedEnvelope) : List String := q.map (·.env.id)

/-- What a connection has accepted and what it is still to flush. -/
def ahead (cl : Client) : List String := channelled cl ++ toFlush cl.pc

structure InOrder (s : Relay) : Prop where
  queued : ∀ key, Ascending s.hub.nextID (ids (s.hub.queue key))
  file : ∀ p, s.disk = some p → ∀ key, Ascending p.nextID (ids (p.queue key))
  lanes : ∀ c cl, s.clients c = some cl → Ascending s.hub.nextID (ahead cl)
  begun : ∀ c cl, s.clients c = some cl → cl.pc = .registering → channelled cl = []
  routed : ∀ c target id, Routes s c target id → Upto s.hub.nextID id ∧
    ∀ clt, s.clients target = some clt → clt.pc ≠ .registering ∧ ∀ id' ∈ ahead clt, Before id' id
  apart : ∀ c d target id id', Routes s c target id → Routes s d target id' → c ≠ d →
    Before id id' ∨ Before id' id

variable {s s' : Relay} {c : ConnId} {cl : Client}

/-- A handler whose record was changed routes what it routed before. -/
theorem Routes.of_modify {d target : ConnId} {id : String} {f : Client → Client}
    (found : s.clients c = some cl)
    (kept : ∀ target env clientRef, (f cl).pc = .routing target env clientRef → (f cl).pc = cl.pc)
    (routes : Routes (s.modify c f) d target id) : Routes s d target id := by
  obtain ⟨cl', env, clientRef, after, pc, same⟩ := routes
  rcases modify_found_of found after with ⟨rfl, rfl⟩ | ⟨_, before⟩
  · exact ⟨cl, env, clientRef, found, (kept _ _ _ pc).symm.trans pc, same⟩
  · exact ⟨cl', env, clientRef, before, pc, same⟩

/-- Changing a connection without adding to what it has accepted or will flush. -/
theorem InOrder.modify (order : InOrder s) (f : Client → Client) (found : s.clients c = some cl)
    (fewer : (ahead (f cl)).Sublist (ahead cl))
    (kept : ∀ target env clientRef, (f cl).pc = .routing target env clientRef → (f cl).pc = cl.pc)
    (begun : (f cl).pc = .registering → (f cl).pc = cl.pc ∧ channelled (f cl) = channelled cl) :
    InOrder (s.modify c f) := by
  refine ⟨order.queued, order.file, ?_, ?_, ?_, ?_⟩
  · intro d cl' after
    rcases modify_found_of found after with ⟨rfl, rfl⟩ | ⟨_, before⟩
    · exact (order.lanes d cl found).sublist fewer
    · exact order.lanes d cl' before
  · intro d cl' after registering
    rcases modify_found_of found after with ⟨rfl, rfl⟩ | ⟨_, before⟩
    · obtain ⟨same, channel⟩ := begun registering
      rw [channel]
      exact order.begun d cl found (same.symm.trans registering)
    · exact order.begun d cl' before registering
  · intro d target id routes
    obtain ⟨upto, target_fits⟩ := order.routed d target id (routes.of_modify found kept)
    refine ⟨upto, ?_⟩
    intro clt after
    rcases modify_found_of found after with ⟨rfl, rfl⟩ | ⟨_, before⟩
    · obtain ⟨running, earlier⟩ := target_fits cl found
      refine ⟨?_, fun id' member => earlier id' (fewer.subset member)⟩
      intro registering
      exact running ((begun registering).1.symm.trans registering)
    · exact target_fits clt before
  · intro d e target id id' first second other
    exact order.apart d e target id id' (first.of_modify found kept) (second.of_modify found kept)
      other

/-- Replacing the hub, the file or a history. -/
theorem InOrder.replace (order : InOrder s) (clients : s'.clients = s.clients)
    (grown : s.hub.nextID ≤ s'.hub.nextID)
    (queued : ∀ key, Ascending s'.hub.nextID (ids (s'.hub.queue key)))
    (file : ∀ p, s'.disk = some p → ∀ key, Ascending p.nextID (ids (p.queue key))) :
    InOrder s' := by
  have same (c target : ConnId) (id : String) (routes : Routes s' c target id) :
      Routes s c target id := by
    unfold Routes at routes ⊢
    rwa [clients] at routes
  refine ⟨queued, file, ?_, ?_, ?_, ?_⟩
  · intro c cl found
    rw [clients] at found
    exact (order.lanes c cl found).mono grown
  · rw [clients]
    exact order.begun
  · intro c target id routes
    obtain ⟨upto, fits⟩ := order.routed c target id (same c target id routes)
    rw [clients]
    exact ⟨upto.mono grown, fits⟩
  · intro c d target id id' first second
    exact order.apart c d target id id' (same _ _ _ first) (same _ _ _ second)

/-- A handler moves on to a point where it neither flushes nor routes. -/
theorem InOrder.goto (order : InOrder s) (found : s.clients c = some cl) (pc : Pc)
    (empty : toFlush pc = []) (idle : ∀ target env clientRef, pc ≠ .routing target env clientRef)
    (running : pc ≠ .registering) : InOrder (s.goto c pc) := by
  refine order.modify _ found ?_ (fun _ _ _ routing => absurd routing (idle _ _ _))
    fun registering => absurd registering running
  simp only [ahead, empty, List.append_nil]
  exact List.sublist_append_left _ _

/-- Changing only what the writer, the socket and the channel's content are. -/
theorem InOrder.modify_writer (order : InOrder s) (f : Client → Client)
    (found : s.clients c = some cl) (pc : (f cl).pc = cl.pc)
    (channel : channelled (f cl) = channelled cl) : InOrder (s.modify c f) := by
  refine order.modify f found ?_ (fun _ _ _ _ => pc) fun _ => ⟨pc, channel⟩
  rw [ahead, ahead, pc, channel]

theorem channelled_accept (cl : Client) (msg : RelayMessage) :
    channelled (cl.accept msg) = channelled cl ++ (deliveries [msg]).map (·.id) := by
  simp [channelled, Client.accept]

/-- A frame that carries no envelope may be put anywhere. -/
theorem InOrder.send {target : ConnId} {msg : RelayMessage} (order : InOrder s)
    (other : msg.kind ≠ "deliver") (sent : s.send target msg = some s') : InOrder s' := by
  obtain ⟨clt, found, _, ⟨_, rfl⟩ | ⟨_, rfl⟩⟩ := send_cases sent
  · refine order.modify_writer _ found rfl ?_
    simp [channelled_accept, deliveries_other other]
  · exact order

theorem InOrder.sent {target : ConnId} {msg : RelayMessage} (order : InOrder s)
    (found : s.clients c = some cl) (other : msg.kind ≠ "deliver")
    (sent : s.send target msg = some s') (pc : Pc) (empty : toFlush pc = [])
    (idle : ∀ target env clientRef, pc ≠ .routing target env clientRef)
    (running : pc ≠ .registering) : InOrder (s'.goto c pc) := by
  obtain ⟨cl', found', -⟩ := send_found sent found
  exact (order.send other sent).goto found' pc empty idle running

/-- The flush keeps its own order. -/
theorem InOrder.flush {qe : QueuedEnvelope} {rest : List QueuedEnvelope} (order : InOrder s)
    (found : s.clients c = some cl) (pc : cl.pc = .flushing (qe :: rest))
    (sent : s.send c (deliver qe.env) = some s') : InOrder (s'.goto c (.flushing rest)) := by
  obtain ⟨cl', found', _, ⟨_, rfl⟩ | ⟨_, rfl⟩⟩ := send_cases sent
  · rw [found] at found'
    cases found'
    rw [Relay.goto, modify_modify]
    refine order.modify _ found ?_ (fun _ _ _ routing => by cases routing)
      fun registering => by cases registering
    have same : ahead { cl.accept (deliver qe.env) with pc := .flushing rest } = ahead cl := by
      simp [ahead, pc, toFlush, channelled, Client.accept]
    rw [same]
  · refine order.modify _ found ?_ (fun _ _ _ routing => by cases routing)
      fun registering => by cases registering
    simp only [ahead, toFlush, pc, List.map_cons]
    exact (List.Sublist.refl _).append (List.sublist_cons_self _ _)

/-- An envelope is placed after everything that is ahead of it, and before
everything that is routed to the same connection. -/
theorem InOrder.place {target : ConnId} {clt : Client} {env : Envelope} (order : InOrder s)
    (found : s.clients target = some clt) (flushed : toFlush clt.pc = [])
    (running : clt.pc ≠ .registering) (upto : Upto s.hub.nextID env.id)
    (behind : ∀ id ∈ ahead clt, Before id env.id)
    (rest : ∀ d id, Routes s d target id → Before env.id id) :
    InOrder (s.modify target (·.accept (deliver env))) := by
  have longer : ahead (clt.accept (deliver env)) = ahead clt ++ [env.id] := by
    simp only [ahead, channelled_accept, deliveries_deliver, List.map_cons, List.map_nil]
    rw [show (clt.accept (deliver env)).pc = clt.pc from rfl, flushed, List.append_nil,
      List.append_nil]
  have same (d target' : ConnId) (id : String)
      (routes : Routes (s.modify target (·.accept (deliver env))) d target' id) :
      Routes s d target' id := routes.of_modify found fun _ _ _ _ => rfl
  refine ⟨order.queued, order.file, ?_, ?_, ?_, ?_⟩
  · intro d cl' after
    rcases modify_found_of found after with ⟨rfl, rfl⟩ | ⟨_, before⟩
    · rw [longer]
      exact (order.lanes d clt found).snoc upto behind
    · exact order.lanes d cl' before
  · intro d cl' after registering
    rcases modify_found_of found after with ⟨rfl, rfl⟩ | ⟨_, before⟩
    · exact absurd registering running
    · exact order.begun d cl' before registering
  · intro d target' id routes
    have before := same d target' id routes
    obtain ⟨upto', fits⟩ := order.routed d target' id before
    refine ⟨upto', ?_⟩
    intro clt' after
    rcases modify_found_of found after with ⟨rfl, rfl⟩ | ⟨_, found'⟩
    · refine ⟨running, ?_⟩
      intro id' member
      rw [longer] at member
      rcases List.mem_append.mp member with earlier | new
      · exact (fits clt found).2 id' earlier
      · rw [List.mem_singleton.mp new]
        exact rest d id before
    · exact fits clt' found'
  · intro d e target' id id' first second
    exact order.apart d e target' id id' (same _ _ _ first) (same _ _ _ second)

/-- `route` sends its envelope when nothing earlier is on its way. -/
theorem InOrder.send_live {target : ConnId} {env : Envelope} {clientRef : String}
    (order : InOrder s) (found : s.clients c = some cl) (pc : cl.pc = .routing target env clientRef)
    (in_turn : Accepts s target → NoneAhead s target env.id)
    (sent : s.send target (deliver env) = some s') :
    InOrder (s'.goto c (.acking env.id clientRef)) := by
  have routes : Routes s c target env.id := ⟨cl, env, clientRef, found, pc, rfl⟩
  obtain ⟨upto, fits⟩ := order.routed c target env.id routes
  have acked : InOrder (s.goto c (.acking env.id clientRef)) :=
    order.goto found _ rfl (fun _ _ _ routing => by cases routing) (by simp)
  obtain ⟨clt, target_found, opened, ⟨room, rfl⟩ | ⟨_, rfl⟩⟩ := send_cases sent
  · obtain ⟨flushed, no_other⟩ := in_turn ⟨clt, target_found, opened, room⟩
    obtain ⟨running, earlier⟩ := fits clt target_found
    rw [Relay.goto, modify_comm _ _ _ _ _ (by exact fun _ => rfl)]
    have later (d : ConnId) (id : String)
        (routes' : Routes (s.goto c (.acking env.id clientRef)) d target id) :
        Before env.id id := by
      have other : c ≠ d := by
        rintro rfl
        obtain ⟨cl', env', ref', found', routing, _⟩ := routes'
        rw [Relay.goto, modify_self _ found] at found'
        cases found'
        cases routing
      have before := routes'.of_modify found fun _ _ _ routing => by cases routing
      exact (order.apart c d target _ _ routes before other).resolve_right (no_other d id before)
    by_cases own : target = c
    · -- a connection that routes to itself is not flushing either
      subst own
      rw [found] at target_found
      cases target_found
      exact acked.place (modify_self _ found) rfl (by simp) upto
        (by simpa [ahead, pc, toFlush, channelled] using earlier) later
    · exact acked.place ((modify_ne _ own).trans target_found) (flushed clt target_found) running
        upto earlier later
  · exact acked

/-- The file holds an earlier state or the one just written. -/
theorem file_persisted {h : Hub} {wrote : Bool} {disk : Option PersistedHub}
    (queued : ∀ key, Ascending h.nextID (ids (h.queue key)))
    (old : ∀ p, disk = some p → ∀ key, Ascending p.nextID (ids (p.queue key))) :
    ∀ p, h.persistLocked wrote disk = some p → ∀ key, Ascending p.nextID (ids (p.queue key)) := by
  intro p written
  rcases persistLocked_cases h wrote disk with kept | fresh
  · exact old p (kept ▸ written)
  · rw [fresh] at written
    cases written
    exact queued

/-- A new connection has accepted nothing, and nobody routes to it. -/
theorem InOrder.connect (wired : Wired s) (order : InOrder s) (userID : String)
    (deviceID : Int64) : InOrder (s.connect userID deviceID) := by
  have same (d target : ConnId) (id : String)
      (routes : Routes (s.connect userID deviceID) d target id) : Routes s d target id := by
    obtain ⟨cl, env, clientRef, found, pc, stamped⟩ := routes
    rcases connect_found found with rfl | before
    · cases pc
    · exact ⟨cl, env, clientRef, before, pc, stamped⟩
  refine ⟨order.queued, order.file, ?_, ?_, ?_, ?_⟩
  · intro d cl after
    rcases connect_found after with rfl | before
    · exact ascending_nil _
    · exact order.lanes d cl before
  · intro d cl after registering
    rcases connect_found after with rfl | before
    · rfl
    · exact order.begun d cl before registering
  · intro d target id routes
    have before := same d target id routes
    obtain ⟨upto, fits⟩ := order.routed d target id before
    refine ⟨upto, ?_⟩
    intro clt after
    obtain ⟨cl, env, clientRef, found, pc, _⟩ := before
    obtain ⟨clt', known⟩ := wired.known d cl target found (by rw [pc]; rfl)
    have other : target ≠ s.nextConn := by
      rintro rfl
      rw [wired.fresh s.nextConn (Nat.le_refl _)] at known
      cases known
    rw [connect_ne other] at after
    exact fits clt after
  · intro d e target id id' first second
    exact order.apart d e target id id' (same _ _ _ first) (same _ _ _ second)

/-- `register` starts the flush of a connection that has accepted nothing. -/
theorem InOrder.register {now : Int} {wrote : Bool} (order : InOrder s)
    (found : s.clients c = some cl) (pc : cl.pc = .registering) (clients : s'.clients =
      (s.goto c (.flushing (kept now (s.hub.queue cl.routeKey)))).clients)
    (hub : s'.hub = (s.hub.register c cl.routeKey now wrote s.disk).1)
    (disk : s'.disk = (s.hub.register c cl.routeKey now wrote s.disk).2.1) : InOrder s' := by
  have flushing : InOrder (s.goto c (.flushing (kept now (s.hub.queue cl.routeKey)))) := by
    have unrouted (d target : ConnId) (id : String)
        (routes : Routes (s.goto c (.flushing (kept now (s.hub.queue cl.routeKey)))) d target id) :
        Routes s d target id ∧ target ≠ c := by
      have before := routes.of_modify found fun _ _ _ routing => by cases routing
      refine ⟨before, ?_⟩
      rintro rfl
      exact ((order.routed d target id before).2 cl found).1 pc
    refine ⟨order.queued, order.file, ?_, ?_, ?_, ?_⟩
    · intro d cl' after
      rcases modify_found_of found after with ⟨rfl, rfl⟩ | ⟨_, before⟩
      · have empty : channelled { cl with pc := .flushing (kept now (s.hub.queue cl.routeKey)) } = [] :=
          order.begun d cl found pc
        rw [ahead, empty]
        exact (order.queued cl.routeKey).sublist ((kept_sublist now _).map _)
      · exact order.lanes d cl' before
    · intro d cl' after registering
      rcases modify_found after with ⟨rfl, cl₀, before, rfl⟩ | ⟨_, before⟩
      · cases registering
      · exact order.begun d cl' before registering
    · intro d target id routes
      obtain ⟨before, other⟩ := unrouted d target id routes
      rw [Relay.goto, modify_ne _ other]
      exact order.routed d target id before
    · intro d e target id id' first second
      exact order.apart d e target id id' (unrouted _ _ _ first).1 (unrouted _ _ _ second).1
  have drained (key : String) :
      Ascending s.hub.nextID (ids (Function.update s.hub.queue cl.routeKey [] key)) := by
    rw [Function.update_apply]
    split
    · exact ascending_nil _
    · exact order.queued key
  obtain ⟨taken, -⟩ := register_eq s.hub c cl.routeKey now wrote s.disk
  refine flushing.replace clients ?_ ?_ ?_
  · rw [hub, taken]
    exact UInt64.le_refl _
  · rw [hub, taken]
    exact drained
  · rw [disk]
    intro p written
    rcases register_disk s.hub c cl.routeKey now wrote s.disk with kept | fresh
    · exact order.file p (kept ▸ written)
    · rw [fresh] at written
      cases written
      exact drained

/-- After a handler has started to route, it and the ones before it route. -/
theorem Routes.of_goto {target target' d : ConnId} {env : Envelope} {clientRef id : String}
    (routes : Routes (s.goto c (.routing target env clientRef)) d target' id) :
    d = c ∧ target' = target ∧ id = env.id ∨ d ≠ c ∧ Routes s d target' id := by
  obtain ⟨cl', env', ref', after, pc, same⟩ := routes
  rcases modify_found after with ⟨own, cl₀, before, rfl⟩ | ⟨other, before⟩
  · cases pc
    exact .inl ⟨own, rfl, same.symm⟩
  · exact .inr ⟨other, cl', env', ref', before, pc, same⟩

/-- `route` gives an envelope for a connection a number after all others. -/
theorem InOrder.route_live {target : ConnId} {env : Envelope} {clientRef : String}
    (order : InOrder s) (countable : Countable s.hub) (found : s.clients c = some cl)
    (running : ∀ clt, s.clients target = some clt → clt.pc ≠ .registering)
    (clients : s'.clients =
      (s.goto c (.routing target (s.hub.count.stamp env) clientRef)).clients)
    (counter : s'.hub.nextID = s.hub.count.nextID)
    (queued : ∀ key, Ascending s'.hub.nextID (ids (s'.hub.queue key)))
    (file : ∀ p, s'.disk = some p → ∀ key, Ascending p.nextID (ids (p.queue key))) :
    InOrder s' := by
  have grown : s.hub.nextID ≤ s'.hub.nextID := counter ▸ countable.le
  have cases_of (d target' : ConnId) (id : String) (routes : Routes s' d target' id) :
      d = c ∧ target' = target ∧ id = (s.hub.count.stamp env).id ∨ d ≠ c ∧ Routes s d target' id := by
    have moved : Routes (s.goto c (.routing target (s.hub.count.stamp env) clientRef)) d target' id := by
      unfold Routes at routes ⊢
      rwa [← clients]
    exact moved.of_goto
  have lanes (d : ConnId) (cl' : Client) (after : s'.clients d = some cl') :
      ∃ before, s.clients d = some before ∧ channelled cl' = channelled before ∧
        (ahead cl').Sublist (ahead before) ∧ (cl'.pc = .registering → before.pc = .registering) := by
    rw [clients] at after
    rcases modify_found after with ⟨rfl, cl₀, before, rfl⟩ | ⟨_, before⟩
    · refine ⟨cl₀, before, rfl, ?_, fun registering => by cases registering⟩
      simp only [ahead, toFlush, List.append_nil]
      exact List.sublist_append_left _ _
    · exact ⟨cl', before, rfl, List.Sublist.refl _, id⟩
  refine ⟨queued, file, ?_, ?_, ?_, ?_⟩
  · intro d cl' after
    obtain ⟨clb, before, _, fewer, _⟩ := lanes d cl' after
    exact ((order.lanes d clb before).sublist fewer).mono grown
  · intro d cl' after registering
    obtain ⟨clb, before, channel, _, start⟩ := lanes d cl' after
    rw [channel]
    exact order.begun d clb before (start registering)
  · intro d target' id routes
    rcases cases_of d target' id routes with ⟨rfl, rfl, rfl⟩ | ⟨_, before⟩
    · refine ⟨⟨_, counter ▸ UInt64.le_refl _, rfl⟩, ?_⟩
      intro clt after
      obtain ⟨clb, before, _, fewer, start⟩ := lanes target' clt after
      refine ⟨fun registering => running clb before (start registering), ?_⟩
      exact fun id' member =>
        before_next countable ((order.lanes target' clb before).2 id' (fewer.subset member))
    · obtain ⟨upto, fits⟩ := order.routed d target' id before
      refine ⟨upto.mono grown, ?_⟩
      intro clt after
      obtain ⟨clb, before, _, fewer, start⟩ := lanes target' clt after
      obtain ⟨begun, earlier⟩ := fits clb before
      exact ⟨fun registering => begun (start registering),
        fun id' member => earlier id' (fewer.subset member)⟩
  · intro d e target' id id' first second other
    rcases cases_of d target' id first with ⟨rfl, rfl, rfl⟩ | ⟨_, before⟩ <;>
      rcases cases_of e target' id' second with ⟨rfl, same, rfl⟩ | ⟨_, before'⟩
    · exact absurd rfl other
    · exact .inr (before_next countable (order.routed e _ id' before').1)
    · exact .inl (before_next countable (order.routed d _ id before).1)
    · exact order.apart d e target' id id' before before' other

/-- `route` puts an envelope for nobody at the end of its queue. -/
theorem InOrder.route_offline (order : InOrder s) (countable : Countable s.hub) (env : Envelope)
    (enqueuedAt now : Int) (key : String) :
    Ascending (s.hub.enqueue env enqueuedAt now).nextID
      (ids ((s.hub.enqueue env enqueuedAt now).queue key)) := by
  simp only [Hub.enqueue, Function.update_apply]
  split
  · have longer : Ascending s.hub.count.nextID
        (ids (s.hub.queue env.key ++ [⟨s.hub.count.stamp env, enqueuedAt⟩])) := by
      rw [ids, List.map_append]
      exact ((order.queued env.key).mono countable.le).snoc ⟨_, UInt64.le_refl _, rfl⟩
        fun id' member => before_next countable ((order.queued env.key).2 id' member)
    exact longer.sublist ((kept_sublist now _).map _)
  · exact (order.queued key).mono countable.le

/-- A step that overtakes nothing keeps the order. -/
theorem step_inOrder {a : Action} (wired : Wired s) (sound : Sound s) (order : InOrder s)
    (in_turn : InTurn s (.act a)) (moved : s.step a = some s') : InOrder s' := by
  have not_routing {pc : Pc} (empty : lane pc = []) (target : ConnId) (env : Envelope)
      (clientRef : String) : pc ≠ .routing target env clientRef := by
    rintro rfl
    cases empty
  cases step_moves moved with
  | connect userID deviceID => exact order.connect wired userID deviceID
  | register found pc => exact order.register found pc rfl rfl rfl
  | flush found pc sent => exact order.flush found pc sent
  | flushPanic found pc _ => exact order.goto found _ rfl (not_routing rfl) (by simp)
  | startWriter found pc =>
    refine order.modify _ found ?_ (fun _ _ _ routing => by cases routing)
      fun registering => by cases registering
    simp [ahead, toFlush, channelled]
  | take found _ _ => exact order.modify_writer _ found rfl rfl
  | write found _ => exact order.modify_writer _ found rfl rfl
  | writeError found _ => exact order.modify_writer _ found rfl rfl
  | drained found _ _ _ => exact order.modify_writer _ found rfl rfl
  | ignore _ _ => exact order
  | registerPush _ _ => exact order.replace rfl (UInt64.le_refl _) order.queued order.file
  | routeLive found pc claimed connected =>
    next c cl env envelope target msg enqueuedAt now wrote =>
    obtain ⟨clt', target_found, _, attached⟩ := wired.live _ _ connected
    have running (clt : Client) (known : s.clients target = some clt) : clt.pc ≠ .registering := by
      rw [target_found] at known
      cases known
      intro registering
      rw [registering] at attached
      exact attached
    have queued (key : String) : Ascending s.hub.count.nextID (ids (s.hub.queue key)) :=
      (order.queued key).mono in_turn.le
    exact order.route_live in_turn found running rfl rfl queued (file_persisted queued order.file)
  | routeOffline found pc claimed offline =>
    next c cl env envelope msg enqueuedAt now wrote =>
    have queued := order.route_offline in_turn env enqueuedAt now
    have moved := order.goto found (.acking (s.hub.count.stamp env).id msg.clientRef) rfl
      (not_routing rfl) (by simp)
    exact moved.replace rfl in_turn.le queued (file_persisted queued order.file)
  | receipt found pc status connected => exact order.goto found _ rfl (not_routing rfl) (by simp)
  | sendLive found pc sent =>
    next c cl target env clientRef s₁ =>
    have acked := order.send_live found pc
      (in_turn target env.id ⟨cl, env, clientRef, found, pc, rfl⟩) sent
    exact acked.replace rfl (UInt64.le_refl _) acked.queued acked.file
  | sendLivePanic found pc _ => exact order.goto found _ rfl (not_routing rfl) (by simp)
  | ack found pc kind sent =>
    exact order.sent found (by rw [kind]; decide) sent _ rfl (not_routing rfl) (by simp)
  | ackPanic found pc _ => exact order.goto found _ rfl (not_routing rfl) (by simp)
  | forward found pc sent =>
    have status := sound.handlers _ _ found
    simp only [HandlerSound, pc] at status
    exact order.sent found (by rw [status]; decide) sent _ rfl (not_routing rfl) (by simp)
  | forwardPanic found pc _ => exact order.goto found _ rfl (not_routing rfl) (by simp)
  | readError found pc => exact order.goto found _ rfl (not_routing rfl) (by simp)
  | unregister found pc =>
    have moved := order.goto found .unregistered rfl (not_routing rfl) (by simp)
    refine moved.replace rfl ?_ ?_ moved.file
    · simp [Relay.goto, Relay.modify]
    · simp only [Relay.goto, Relay.modify, unregister_queue, unregister_nextID]
      exact order.queued
  | closeOut found pc _ =>
    refine order.modify _ found ?_ (fun _ _ _ routing => by cases routing)
      fun registering => by cases registering
    simp [ahead, toFlush, channelled]
  | closeTwice found pc _ => exact order.goto found _ rfl (not_routing rfl) (by simp)
  | closeConn found pc =>
    refine order.modify _ found ?_ (fun _ _ _ routing => by cases routing)
      fun registering => by cases registering
    simp [ahead, toFlush, channelled]
  | expire found => exact order.modify_writer _ found rfl rfl

/-- A restart finds the queues in order in the file. -/
theorem restart_inOrder {pusher readable : Bool} {now : Int} (order : InOrder s)
    (restarted : service.step s (.restart pusher readable now) = some s') : InOrder s' := by
  cases restarted
  refine ⟨?_, order.file, ?_, ?_, ?_, ?_⟩
  · intro key
    simp only [started, boot]
    split
    · exact ascending_nil _
    · split
      · cases written : s.disk with
        | none => exact ascending_nil _
        | some p =>
          exact (order.file p written key).sublist ((kept_sublist now (p.queue key)).map _)
      · exact ascending_nil _
  · intro c cl found
    cases found
  · intro c cl found
    cases found
  · rintro c target id ⟨cl, env, clientRef, found, _⟩
    cases found
  · rintro c d target id id' ⟨cl, env, clientRef, found, _⟩
    cases found

theorem started_inOrder (s : Relay) (start : service.start s) : InOrder s := by
  obtain ⟨path, pusher, rfl⟩ := start
  refine ⟨fun _ => ascending_nil _, ?_, ?_, ?_, ?_, ?_⟩
  · intro p written
    cases written
  · intro c cl found
    cases found
  · intro c cl found
    cases found
  · rintro c target id ⟨cl, env, clientRef, found, _⟩
    cases found
  · rintro c d target id id' ⟨cl, env, clientRef, found, _⟩
    cases found

/-- The order holds in every state of the runs that overtake nothing. -/
theorem reached_inOrder (reached : service.Reached InTurn s) : InOrder s := by
  have known (s : Relay) (reached : service.Reached InTurn s) : Wired s ∧ Sound s :=
    reachable_sound reached.reachable
  refine reached.invariant_under InOrder known started_inOrder ?_
  rintro s event s' ⟨wired, sound⟩ order in_turn moved
  cases event with
  | act a => exact step_inOrder wired sound order in_turn moved
  | restart pusher readable now => exact restart_inOrder order moved

/-- **Per-recipient order.** In every run in which no envelope overtakes another
one for the same connection between the lock and the channel, restarts and
failing file writes included, the envelopes every connection's channel has
accepted are in increasing order of the numbers `route` gave them. -/
theorem channels_are_in_order_unless_overtaken (reached : service.Reached InTurn s)
    (found : s.clients c = some cl) : (channelled cl).Pairwise Before := by
  have lane := ((reached_inOrder reached).lanes c cl found).1
  exact lane.sublist (List.sublist_append_left _ _)

/-- Steps that meet the condition because nothing live is sent. -/
def quiet (s : Relay) : Event → Bool
  | .act (.at _ .sendLive) => false
  | _ => decide (Countable s.hub)

theorem inTurn_of_quiet (s : Relay) (event : Event) (calm : quiet s event = true) :
    InTurn s event := by
  cases event with
  | restart pusher readable now => trivial
  | act a =>
    cases a with
    | connect userID deviceID => trivial
    | «at» c move =>
      cases move with
      | frame msg enqueuedAt now wrote =>
        show Countable s.hub
        exact of_decide_eq_true calm
      | sendLive => cases calm
      | _ => trivial

/-- A letter is queued for bob, bob connects and is flushed, and a second letter
is on its way to him. -/
def promptFlush : List Event :=
  [ .act (.connect "alice" 1), .act (.at 0 (.register 0 true)), .act (.at 0 .startWriter),
    .act (.at 0 (.frame (some letterToBob) 1 1 true)), .act (.at 0 (.ack 1)),
    .act (.connect "bob" 1), .act (.at 1 (.register 2 true)), .act (.at 1 .flush),
    .act (.at 1 .startWriter), .act (.at 0 (.frame (some letterToBob) 3 3 true)) ]

/-- The second letter is sent in its turn. -/
theorem prompt_flush_is_in_order : ∃ s cl, service.Reached InTurn s ∧ s.clients 1 = some cl ∧
    channelled cl = ["env-1", "env-2"] ∧ (channelled cl).Pairwise Before := by
  let second : Envelope :=
    { id := "env-2", recipientID := "bob", recipientDevice := 1, senderID := "alice"
      senderDevice := 1, type := 2, ciphertext := "AAEC", timestamp := 0 }
  have observed : ((service.checkedRun (quiet · · = true) (started (newHub "" false) none)
      promptFlush).bind fun s => (service.step s (.act (.at 0 .sendLive))).map fun s' =>
        (s.nextConn, (s.clients 0).map (·.pc), (s.clients 1).map (·.pc),
          (s'.clients 1).map channelled)) =
      some (2, some (.routing 1 second ""), some .reading, some ["env-1", "env-2"]) := by
    decide +kernel
  obtain ⟨s, ran, stepped⟩ := Option.bind_eq_some_iff.mp observed
  obtain ⟨s', sent, seen⟩ := Option.map_eq_some_iff.mp stepped
  simp only [Prod.mk.injEq, Option.map_eq_some_iff] at seen
  obtain ⟨conns, ⟨alice, foundA, pcA⟩, ⟨bob, foundB, pcB⟩, ⟨cl, found, channel⟩⟩ := seen
  have calm : service.Reached (quiet · · = true) s :=
    Machine.Reached.checkedRun (.start ⟨"", false, rfl⟩) promptFlush ran
  have before : service.Reached InTurn s := calm.weaken inTurn_of_quiet
  have in_turn : InTurn s (.act (.at 0 .sendLive)) := by
    rintro target id ⟨cl₀, env, clientRef, found₀, pc, rfl⟩ _
    rw [foundA] at found₀
    cases found₀
    rw [pcA] at pc
    cases pc
    refine ⟨?_, ?_⟩
    · intro clt known
      rw [foundB] at known
      cases known
      rw [pcB]
      rfl
    · rintro d id' ⟨cld, env', ref', foundD, pcD, rfl⟩
      have live : d < s.nextConn := by
        apply Nat.lt_of_not_le
        intro beyond
        have absent := (reachable_sound before.reachable).1.fresh d beyond
        rw [foundD] at absent
        cases absent
      rw [conns] at live
      obtain rfl | rfl : d = 0 ∨ d = 1 :=
        Nat.le_one_iff_eq_zero_or_eq_one.mp (Nat.le_of_lt_succ live)
      · rw [foundA] at foundD
        cases foundD
        rw [pcA] at pcD
        cases pcD
        exact not_before_self _
      · rw [foundB] at foundD
        cases foundD
        rw [pcB] at pcD
        cases pcD
  have reached : service.Reached InTurn s' := .step before in_turn sent
  exact ⟨s', cl, reached, found, channel, channels_are_in_order_unless_overtaken reached found⟩

/-- A letter is queued for bob; bob connects, and his connection is published
before his queue is flushed. -/
def overtakenFlush : List Event :=
  [ .act (.connect "alice" 1), .act (.at 0 (.register 0 true)), .act (.at 0 .startWriter),
    .act (.at 0 (.frame (some letterToBob) 1 1 true)), .act (.at 0 (.ack 1)),
    .act (.connect "bob" 1), .act (.at 1 (.register 2 true)),
    .act (.at 0 (.frame (some letterToBob) 3 3 true)), .act (.at 0 .sendLive),
    .act (.at 1 .flush) ]

/-- The second letter is on bob's channel before the first. -/
theorem flush_is_overtaken : ∃ s cl, service.Reachable s ∧ s.clients 1 = some cl ∧
    channelled cl = ["env-2", "env-1"] ∧ ¬ (channelled cl).Pairwise Before := by
  have observed : (service.run (started (newHub "" false) none) overtakenFlush).bind
      (fun s => (s.clients 1).map channelled) = some ["env-2", "env-1"] := by decide +kernel
  obtain ⟨s, ran, seen⟩ := Option.bind_eq_some_iff.mp observed
  obtain ⟨cl, found, channel⟩ := Option.map_eq_some_iff.mp seen
  refine ⟨s, cl, Machine.reachable_of_run ⟨"", false, rfl⟩ overtakenFlush ran, found, channel, ?_⟩
  intro ordered
  rw [channel] at ordered
  have misplaced : Before "env-2" "env-1" := by simpa using ordered
  obtain ⟨m, n, second, first, less⟩ := misplaced
  have two : m = 2 := envelopeID_injective (second.symm.trans (by decide))
  have one : n = 1 := envelopeID_injective (first.symm.trans (by decide))
  subst two one
  exact absurd less (by decide)

end Hwfa.RelayOrder
