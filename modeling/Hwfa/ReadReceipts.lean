import Hwfa.ClientLifecycle
import Hwfa.ConversationInbound

/-!
Read receipts (`apps/mobile/src/store/conversations.ts`, `markRead`;
`packages/client/src/client.ts`, `sendReadReceipt`; `relay.ts`, `send`).

`markRead` marks every message that is due, whatever becomes of its receipt: without a
relay connection the client ignores the call, a socket that is not open yet throws, and
one that is closing drops what it is given.  The reader is the store with the client's
relay connection; an envelope reaches it once, since a ciphertext is decrypted only once.
-/

namespace Hwfa.ReadReceipts

open Hwfa.Json Hwfa.Maps Hwfa.Machines Hwfa.ConversationStore Hwfa.ConversationInbound
open Hwfa.ClientLifecycle (Client)

/-! ## The reader -/

/-- What becomes of a frame that `sendReadReceipt` hands on. -/
inductive Sending where
  /-- there is no relay connection -/
  | ignored
  /-- the connection has given up its socket, or the socket is not open yet -/
  | thrown
  /-- the socket is closing, or closed -/
  | dropped
  | written
  deriving DecidableEq

def sending (c : Client) : Sending :=
  match c.relay with
  | none => .ignored
  | some socket =>
    match c.sockets.lookup socket with
    | none => .thrown
    | some s =>
      if s.released then .thrown
      else
        match s.phase with
        | .connecting => .thrown
        | .opened => .written
        | .failed | .closed => .dropped

structure Reader where
  store : Store := {}
  client : Client := {}
  /-- the envelopes that came in, and who sent them -/
  received : List (Text × Text) := []
  /-- to whom a receipt was written to an open socket, for which envelope -/
  written : List (Value × Text) := []

inductive Action where
  | receive (me : Option Text) (m : Inbound)
  | client (a : ClientLifecycle.Action)
  | markRead (peerUserId : Key)

/-- The envelope of a message, if it has one. -/
def envelopeOf (m : Inbound) : Option Text := m.envelopeId.filter (· ≠ [])

namespace Reader

def receive (r : Reader) (me : Option Text) (m : Inbound) : Reader :=
  { r with
    store := (r.store.receive me m).store
    received := r.received ++ (envelopeOf m).toList.map fun e => (e, m.fromUserId) }

def markRead (r : Reader) (peerUserId : Key) : Reader :=
  { r with
    store := (r.store.markRead peerUserId).1
    written :=
      if sending r.client = .written then r.written ++ (r.store.markRead peerUserId).2
      else r.written }

/-- Whether an envelope has not come in before. -/
def fresh (r : Reader) (m : Inbound) : Bool :=
  (envelopeOf m).all fun e => !(r.received.map Prod.fst).contains e

def step (r : Reader) : Action → Option Reader
  | .receive me m => if r.fresh m then some (r.receive me m) else none
  | .client a => (r.client.step a).map fun client => { r with client }
  | .markRead peerUserId => some (r.markRead peerUserId)

end Reader

def reader : Machine Reader Action where
  start := fun r => r = {}
  step := Reader.step

/-! ## What is to hold -/

/-- No receipt is lost, misdirected or repeated. -/
structure Receipted (r : Reader) : Prop where
  /-- no envelope comes in twice, so that each has one sender -/
  senders : (r.received.map Prod.fst).Nodup
  /-- a receipt was written for what is marked, to the sender of its envelope -/
  sent : ∀ key, ∀ m ∈ getMessages r.store key, m.mine = false → m.readSent →
    ∃ envelopeId sender, m.envelopeId = some envelopeId ∧ (envelopeId, sender) ∈ r.received ∧
      (.string sender, envelopeId) ∈ r.written
  /-- what has none is tried by the next `markRead` of its thread -/
  retried : ∀ key, ∀ m ∈ getMessages r.store key, m.mine = false →
    ∀ envelopeId, m.envelopeId = some envelopeId → envelopeId ∉ r.written.map Prod.snd →
      ∃ sender, (envelopeId, sender) ∈ r.received ∧
        (.string sender, envelopeId) ∈ (r.store.markRead key).2
  once : (r.written.map Prod.snd).Nodup

/-- What is due is marked only while the socket is open. -/
def Online (r : Reader) : Action → Bool
  | .markRead key => (r.store.markRead key).2.isEmpty || sending r.client = .written
  | _ => true

/-! ## Tickets -/

/-- What a message says of its receipt. -/
structure Ticket where
  mine : Bool
  target : Value
  envelopeId : Option Text
  readSent : Bool

def ticket (key : Key) (m : ChatMessage) : Ticket where
  mine := m.mine
  target := m.senderId.elim key.value .string
  envelopeId := m.envelopeId
  readSent := m.readSent

def tickets (s : Store) (key : Key) : List Ticket := (getMessages s key).map (ticket key)

def due (t : Ticket) : Bool := !t.mine && !t.readSent && t.envelopeId.any (· ≠ [])

def mark (t : Ticket) : Ticket := if due t then { t with readSent := true } else t

/-- The receipt that is sent on a ticket. -/
def receipt (t : Ticket) : Value × Text := (t.target, t.envelopeId.getD [])

variable {r r' : Reader} {a : Action} {s s' : Store} {key other : Key} {t : Ticket} {e : Text}

/-- The messages of a thread that is read. -/
theorem getMessages_markRead (s : Store) (key other : Key) :
    getMessages (s.markRead key).1 other = if other = key then (getMessages s key).map fun m =>
      if due (ticket key m) then { m with readSent := true } else m
    else getMessages s other := by
  unfold Store.markRead
  split
  · next conv found =>
    have there : getMessages s key = conv.messages := by rw [getMessages, found, Option.elim_some]
    dsimp only
    rw [there]
    split <;> exact getMessages_set ..
  · next missing =>
    have nothing : getMessages s key = [] := by rw [getMessages, missing, Option.elim_none]
    split
    · next same => rw [same, nothing, List.map_nil]
    · rfl

theorem tickets_markRead (s : Store) (key other : Key) : tickets (s.markRead key).1 other =
    if other = key then (tickets s key).map mark else tickets s other := by
  unfold tickets
  rw [getMessages_markRead]
  split
  · next same =>
    rw [same, List.map_map, List.map_map]
    apply List.map_congr_left
    intro m _
    simp only [Function.comp_apply, mark]
    split <;> rfl
  · rfl

/-- A receipt is tried for each message that is due. -/
theorem receipts_markRead (s : Store) (key : Key) :
    (s.markRead key).2 = ((tickets s key).filter due).map receipt := by
  unfold Store.markRead tickets
  split
  · next conv found =>
    have there : getMessages s key = conv.messages := by rw [getMessages, found, Option.elim_some]
    rw [there, List.filter_map, List.map_map]
    rfl
  · next missing =>
    have nothing : getMessages s key = [] := by rw [getMessages, missing, Option.elim_none]
    rw [nothing]
    rfl

/-- The ticket of a message that comes in. -/
def posted (m : Inbound) : Ticket where
  mine := false
  target := .string m.fromUserId
  envelopeId := envelopeOf m
  readSent := false

/-- A message that comes in is posted to one thread at most. -/
def Posts (s : Store) (m : Inbound) (s' : Store) : Prop :=
  ∃ thread : Option Key, ∀ key,
    tickets s' key = tickets s key ++ if thread = some key then [posted m] else []

theorem posts_of_same {m : Inbound} (same : ∀ key, getMessages s' key = getMessages s key) :
    Posts s m s' := by
  refine ⟨none, fun key => ?_⟩
  rw [if_neg (by simp), List.append_nil, tickets, same, tickets]

/-- A thread is opened at most. -/
theorem posts_of_opened {m : Inbound} (stored : s'.convs = (s.set key (s.ensure key)).convs) :
    Posts s m s' := by
  refine posts_of_same fun other => ?_
  rw [← getMessages_set_ensure s key other, getMessages, stored, getMessages]

theorem posts_of_appends {m : Inbound} {message : ChatMessage}
    (appends : Appends s s' key message) (is : ticket key message = posted m) : Posts s m s' := by
  refine ⟨some key, fun other => ?_⟩
  by_cases same : other = key
  · rw [same, if_pos rfl, tickets, appends.messages, List.map_append, List.map_singleton, is,
      tickets]
  · have elsewhere : some key ≠ some other := fun named => same (Option.some.inj named).symm
    rw [if_neg elsewhere, List.append_nil, tickets, getMessages, appends.others other same]
    rfl

/-- What changes no ticket may follow. -/
theorem Posts.followed {m : Inbound} {s'' : Store} (posts : Posts s m s')
    (same : ∀ key, tickets s'' key = tickets s' key) : Posts s m s'' := by
  obtain ⟨thread, posted_⟩ := posts
  exact ⟨thread, fun key => (same key).trans (posted_ key)⟩

theorem tickets_loadMedia (s : Store) (key other : Key) (messageId : Text) :
    tickets (s.loadMedia key messageId) other = tickets s other := by
  rw [tickets, Store.loadMedia, getMessages_patch]
  split
  · next same =>
    rw [same, tickets]
    exact map_changeFirst _ _ fun _ => rfl
  · rfl

theorem posts_receiveGroup (s : Store) (me : Option Text) (m : Inbound) (payload : Value) :
    Posts s m (s.receiveGroup me m payload).store := by
  cases read : Store.roster me (payload.get "members") with
  | none => exact posts_of_opened (receiveGroup_threw read).2.1
  | some members => exact posts_of_appends (receiveGroup_appends read).2 rfl

theorem posts_receiveChat (s : Store) (m : Inbound) : Posts s m (s.receiveChat m).store := by
  by_cases media : (parseMediaBody m.text).truthy
  · cases labelled : mediaLabel ((parseMediaBody m.text).get "mime")
        ((parseMediaBody m.text).get "name") with
    | none => exact posts_of_opened (receiveChat_threw media labelled).2.1
    | some label =>
      obtain ⟨-, t, appends, became⟩ := receiveChat_media media labelled
      have posts : Posts s m t := posts_of_appends appends rfl
      rcases became with same | ⟨-, same⟩
      · rwa [same]
      · rw [same]
        exact posts.followed fun other => tickets_loadMedia ..
  · exact posts_of_appends (receiveChat_plain media).2.2 rfl

theorem posts_receive (s : Store) (me : Option Text) (m : Inbound) :
    Posts s m (s.receive me m).store := by
  have taken := receive_taken s me m
  generalize s.receive me m = reception at taken
  cases taken with
  | aside _ convs =>
    refine posts_of_same fun key => ?_
    rw [getMessages, convs, getMessages]
  | group => exact posts_receiveGroup ..
  | chat => exact posts_receiveChat ..

/-! ## Every state -/

/-- What holds whether or not receipts get lost. -/
structure Kept (r : Reader) : Prop where
  senders : (r.received.map Prod.fst).Nodup
  inbound : ∀ key, ∀ t ∈ tickets r.store key, t.mine = false
  origin : ∀ key, ∀ t ∈ tickets r.store key, ∀ e, t.envelopeId = some e →
    e ≠ [] ∧ ∃ sender, (e, sender) ∈ r.received ∧ t.target = .string sender
  within : ∀ key, ((tickets r.store key).filterMap Ticket.envelopeId).Nodup
  across : ∀ key, ∀ t ∈ tickets r.store key, ∀ other, ∀ t' ∈ tickets r.store other,
    ∀ e, t.envelopeId = some e → t'.envelopeId = some e → key = other
  written_ : ∀ w ∈ r.written, w.2 ∈ r.received.map Prod.fst
  read : ∀ key, ∀ t ∈ tickets r.store key, ∀ e, t.envelopeId = some e →
    e ∈ r.written.map Prod.snd → t.readSent
  once : (r.written.map Prod.snd).Nodup

/-- A receipt was written for every ticket that says so. -/
def Sent (r : Reader) : Prop :=
  ∀ key, ∀ t ∈ tickets r.store key, t.readSent → ∃ e sender, t.envelopeId = some e ∧
    (e, sender) ∈ r.received ∧ (.string sender, e) ∈ r.written

theorem due_iff (inbound : t.mine = false) :
    due t ↔ t.readSent = false ∧ ∃ e, t.envelopeId = some e ∧ e ≠ [] := by
  rw [due, inbound]
  cases t.envelopeId <;> simp

@[simp] theorem mine_mark (t : Ticket) : (mark t).mine = t.mine := by
  unfold mark
  split <;> rfl

@[simp] theorem target_mark (t : Ticket) : (mark t).target = t.target := by
  unfold mark
  split <;> rfl

@[simp] theorem envelopeId_mark (t : Ticket) : (mark t).envelopeId = t.envelopeId := by
  unfold mark
  split <;> rfl

/-- What has an envelope is marked. -/
theorem readSent_mark (inbound : t.mine = false) (named : t.envelopeId = some e) (filled : e ≠ []) :
    (mark t).readSent := by
  unfold mark
  split
  · rfl
  · next not_due =>
    rw [due_iff inbound] at not_due
    by_contra unsent
    exact not_due ⟨Bool.eq_false_iff.mpr unsent, e, named, filled⟩

/-- What was marked stays so. -/
theorem readSent_mark_of_readSent (sent : t.readSent) : (mark t).readSent := by
  unfold mark
  split
  · rfl
  · exact sent

/-- What is due is due for its envelope. -/
theorem receipt_of_due (is : due t) : ∃ e, t.envelopeId = some e ∧ receipt t = (t.target, e) := by
  cases named : t.envelopeId with
  | none => simp [due, named] at is
  | some e => exact ⟨e, rfl, by rw [receipt, named]; rfl⟩

/-- The receipts are for the envelopes of what is due. -/
theorem envelopes_receipts (l : List Ticket) :
    ((l.filter due).map receipt).map Prod.snd = (l.filter due).filterMap Ticket.envelopeId := by
  induction l with
  | nil => rfl
  | cons t rest ih =>
    by_cases is : due t
    · obtain ⟨e, named, same⟩ := receipt_of_due is
      rw [List.filter_cons_of_pos is, List.map_cons, List.map_cons, ih,
        List.filterMap_cons_some named, same]
    · rw [List.filter_cons_of_neg is, ih]

theorem started_kept (started : reader.start r) : Kept r := by
  subst started
  refine ⟨.nil, ?_, ?_, fun _ => .nil, ?_, ?_, ?_, .nil⟩
  · intro key t member
    cases member
  · intro key t member
    cases member
  · intro key t member
    cases member
  · intro w member
    cases member
  · intro key t member
    cases member

theorem started_sent (started : reader.start r) : Sent r := by
  subst started
  intro key t member
  cases member

/-- An envelope of a thread has come in. -/
theorem Kept.known (kept : Kept r) (member : t ∈ tickets r.store key)
    (named : t.envelopeId = some e) : e ∈ r.received.map Prod.fst := by
  obtain ⟨-, sender, came, -⟩ := kept.origin key t member e named
  exact List.mem_map.mpr ⟨(e, sender), came, rfl⟩

/-- What comes in now was not there before. -/
theorem unknown_of_fresh {m : Inbound} (fresh : r.fresh m) (named : envelopeOf m = some e) :
    e ∉ r.received.map Prod.fst := by
  rw [Reader.fresh, named] at fresh
  simpa using fresh

theorem mem_received (r : Reader) (me : Option Text) (m : Inbound) (x : Text × Text) :
    x ∈ (r.receive me m).received ↔
      x ∈ r.received ∨ envelopeOf m = some x.1 ∧ x.2 = m.fromUserId := by
  obtain ⟨e, sender⟩ := x
  simp only [Reader.receive, List.mem_append, List.mem_map, Option.mem_toList,
    Prod.mk.injEq]
  constructor
  · rintro (before | ⟨e', named, rfl, rfl⟩)
    · exact .inl before
    · exact .inr ⟨named, rfl⟩
  · rintro (before | ⟨named, rfl⟩)
    · exact .inl before
    · exact .inr ⟨e, named, rfl, rfl⟩

/-- A ticket is an old one, or that of the message. -/
theorem mem_of_posts {m : Inbound} {thread : Option Key}
    (posts : ∀ key, tickets s' key = tickets s key ++ if thread = some key then [posted m] else [])
    (member : t ∈ tickets s' key) : t ∈ tickets s key ∨ thread = some key ∧ t = posted m := by
  rw [posts] at member
  rcases List.mem_append.mp member with before | new
  · exact .inl before
  · split at new
    · next here => exact .inr ⟨here, List.mem_singleton.mp new⟩
    · cases new

/-- One more, if there is one. -/
theorem nodup_append_toList {l : List Text} {o : Option Text} (nodup : l.Nodup)
    (new : ∀ e, o = some e → e ∉ l) : (l ++ o.toList).Nodup := by
  cases o with
  | none => simpa using nodup
  | some e =>
    rw [Option.toList_some, List.nodup_append]
    refine ⟨nodup, by simp, fun x before y last => ?_⟩
    rw [List.mem_singleton.mp last]
    rintro rfl
    exact new x rfl before

theorem receive_kept (kept : Kept r) {me : Option Text} {m : Inbound} (fresh : r.fresh m) :
    Kept (r.receive me m) := by
  obtain ⟨thread, posts⟩ := posts_receive r.store me m
  have mem {key : Key} {t : Ticket} (member : t ∈ tickets (r.receive me m).store key) :
      t ∈ tickets r.store key ∨ thread = some key ∧ t = posted m := mem_of_posts posts member
  have unknown {e : Text} (named : (posted m).envelopeId = some e) :
      e ∉ r.received.map Prod.fst := unknown_of_fresh fresh named
  refine ⟨?_, fun key t member => ?_, fun key t member e named => ?_, fun key => ?_,
    fun key t member other t' member' e named named' => ?_, fun w member => ?_,
    fun key t member e named written => ?_, kept.once⟩
  · have senders : (r.receive me m).received.map Prod.fst =
        r.received.map Prod.fst ++ (envelopeOf m).toList := by
      simp only [Reader.receive, List.map_append, List.map_map]
      congr 1
      exact List.map_id _
    rw [senders]
    exact nodup_append_toList kept.senders fun e named => unknown named
  · rcases mem member with before | ⟨-, rfl⟩
    · exact kept.inbound key t before
    · rfl
  · rcases mem member with before | ⟨-, rfl⟩
    · obtain ⟨filled, sender, came, target⟩ := kept.origin key t before e named
      exact ⟨filled, sender, (mem_received ..).mpr (.inl came), target⟩
    · have filled : e ≠ [] := by simpa using (Option.filter_eq_some_iff.mp named).2
      exact ⟨filled, m.fromUserId, (mem_received ..).mpr (.inr ⟨named, rfl⟩), rfl⟩
  · have here : tickets (r.receive me m).store key =
        tickets r.store key ++ if thread = some key then [posted m] else [] := posts key
    rw [here]
    split
    · have envelope : [posted m].filterMap Ticket.envelopeId = (envelopeOf m).toList := by
        cases named : envelopeOf m <;> simp [posted, named]
      rw [List.filterMap_append, envelope]
      refine nodup_append_toList (kept.within key) fun e named before => ?_
      obtain ⟨t, member, named'⟩ := List.mem_filterMap.mp before
      exact unknown named (kept.known member named')
    · rw [List.append_nil]
      exact kept.within key
  · rcases mem member with before | ⟨here, rfl⟩
    · rcases mem member' with before' | ⟨here', rfl⟩
      · exact kept.across key t before other t' before' e named named'
      · exact absurd (kept.known before named) (unknown named')
    · rcases mem member' with before' | ⟨here', rfl⟩
      · exact absurd (kept.known before' named') (unknown named)
      · rw [here] at here'
        exact Option.some.inj here'
  · obtain ⟨x, came, same⟩ := List.mem_map.mp (kept.written_ w member)
    exact List.mem_map.mpr ⟨x, (mem_received ..).mpr (.inl came), same⟩
  · rcases mem member with before | ⟨-, rfl⟩
    · exact kept.read key t before e named written
    · obtain ⟨w, member, rfl⟩ := List.mem_map.mp written
      exact absurd (kept.written_ w member) (unknown named)

/-- A message that comes in is not marked. -/
theorem receive_sent (sent : Sent r) (me : Option Text) (m : Inbound) : Sent (r.receive me m) := by
  obtain ⟨thread, posts⟩ := posts_receive r.store me m
  intro key t member is
  rcases mem_of_posts posts member with before | ⟨-, rfl⟩
  · obtain ⟨e, sender, named, came, written⟩ := sent key t before is
    exact ⟨e, sender, named, (mem_received ..).mpr (.inl came), written⟩
  · cases is

/-! ### Reading a thread -/

/-- A ticket is an old one, marked if it is of the thread that is read. -/
theorem mem_markRead (member : t ∈ tickets (s.markRead key).1 other) :
    ∃ t₀ ∈ tickets s other, t = if other = key then mark t₀ else t₀ := by
  rw [tickets_markRead] at member
  split at member
  · next same =>
    subst same
    obtain ⟨t₀, before, rfl⟩ := List.mem_map.mp member
    exact ⟨t₀, before, (if_pos rfl).symm⟩
  · next apart => exact ⟨t, member, (if_neg apart).symm⟩

/-- A receipt is for a ticket of the thread that is due. -/
theorem mem_receipts {w : Value × Text} : w ∈ (s.markRead key).2 ↔
    ∃ t ∈ tickets s key, due t ∧ t.envelopeId = some w.2 ∧ t.target = w.1 := by
  rw [receipts_markRead, List.mem_map]
  constructor
  · rintro ⟨t, inside, rfl⟩
    obtain ⟨inside, is⟩ := List.mem_filter.mp inside
    obtain ⟨e, named, same⟩ := receipt_of_due is
    rw [same]
    exact ⟨t, inside, is, named, rfl⟩
  · rintro ⟨t, inside, is, named, target⟩
    refine ⟨t, List.mem_filter.mpr ⟨inside, is⟩, ?_⟩
    rw [receipt, named, target]
    rfl

theorem mem_written (r : Reader) (key : Key) (w : Value × Text) : w ∈ (r.markRead key).written ↔
    w ∈ r.written ∨ sending r.client = .written ∧ w ∈ (r.store.markRead key).2 := by
  simp only [Reader.markRead]
  split
  · next open_ => simp [open_]
  · next closed => simp [closed]

/-- A ticket that a receipt was written for is marked. -/
theorem markRead_read (kept : Kept r) (before : t ∈ tickets r.store other)
    (named : t.envelopeId = some e) (written : e ∈ (r.markRead key).written.map Prod.snd) :
    (if other = key then mark t else t).readSent := by
  obtain ⟨w, wrote, rfl⟩ := List.mem_map.mp written
  rcases (mem_written ..).mp wrote with earlier | ⟨-, tried⟩
  · have marked := kept.read other t before w.2 named (List.mem_map.mpr ⟨w, earlier, rfl⟩)
    split
    · exact readSent_mark_of_readSent marked
    · exact marked
  · obtain ⟨t₁, inside, -, named', -⟩ := mem_receipts.mp tried
    rw [if_pos (kept.across other t before key t₁ inside w.2 named named')]
    exact readSent_mark (kept.inbound other t before) named (kept.origin other t before w.2 named).1

/-- What is due has no receipt yet, and each message is in the thread once. -/
theorem markRead_once (kept : Kept r) (key : Key) :
    ((r.markRead key).written.map Prod.snd).Nodup := by
  simp only [Reader.markRead]
  split
  · rw [List.map_append, List.nodup_append]
    refine ⟨kept.once, ?_, fun e before e' tried => ?_⟩
    · rw [receipts_markRead, envelopes_receipts]
      exact (kept.within key).sublist (List.filter_sublist.filterMap _)
    · rintro rfl
      obtain ⟨w, tries, rfl⟩ := List.mem_map.mp tried
      obtain ⟨t, inside, is, named, -⟩ := mem_receipts.mp tries
      have unsent := ((due_iff (kept.inbound key t inside)).mp is).1
      rw [kept.read key t inside w.2 named before] at unsent
      cases unsent
  · exact kept.once

theorem markRead_kept (kept : Kept r) (key : Key) : Kept (r.markRead key) := by
  have mem {other : Key} {t : Ticket} (member : t ∈ tickets (r.markRead key).store other) :
      ∃ t₀ ∈ tickets r.store other, t = if other = key then mark t₀ else t₀ := mem_markRead member
  have same {p : Prop} [Decidable p] (t : Ticket) : (if p then mark t else t).mine = t.mine ∧
      (if p then mark t else t).target = t.target ∧
      (if p then mark t else t).envelopeId = t.envelopeId := by
    split <;> simp
  refine ⟨kept.senders, fun other t member => ?_, fun other t member e named => ?_, fun other => ?_,
    fun key₁ t member key₂ t' member' e named named' => ?_, fun w member => ?_,
    fun other t member e named written => ?_, markRead_once kept key⟩
  · obtain ⟨t₀, before, rfl⟩ := mem member
    rw [(same t₀).1]
    exact kept.inbound other t₀ before
  · obtain ⟨t₀, before, rfl⟩ := mem member
    rw [(same t₀).2.2] at named
    rw [(same t₀).2.1]
    exact kept.origin other t₀ before e named
  · have here : tickets (r.markRead key).store other =
        if other = key then (tickets r.store key).map mark else tickets r.store other :=
      tickets_markRead ..
    rw [here]
    split
    · have envelopes : Ticket.envelopeId ∘ mark = Ticket.envelopeId := funext envelopeId_mark
      rw [List.filterMap_map, envelopes]
      exact kept.within key
    · exact kept.within other
  · obtain ⟨t₀, before, rfl⟩ := mem member
    obtain ⟨t₁, before', rfl⟩ := mem member'
    rw [(same t₀).2.2] at named
    rw [(same t₁).2.2] at named'
    exact kept.across key₁ t₀ before key₂ t₁ before' e named named'
  · rcases (mem_written ..).mp member with before | ⟨-, tried⟩
    · exact kept.written_ w before
    · obtain ⟨t, inside, -, named, -⟩ := mem_receipts.mp tried
      exact kept.known inside named
  · obtain ⟨t₀, before, rfl⟩ := mem member
    rw [(same t₀).2.2] at named
    exact markRead_read kept before named written

/-- Reading a thread loses no receipt exactly if none was due, or the socket was open. -/
theorem markRead_sent (kept : Kept r) (sent : Sent r) (key : Key) :
    Sent (r.markRead key) ↔ Online r (.markRead key) = true := by
  simp only [Online, Bool.or_eq_true, List.isEmpty_iff, decide_eq_true_eq]
  constructor
  · intro sent'
    by_contra lost
    rw [not_or] at lost
    obtain ⟨w, tried⟩ := List.exists_mem_of_ne_nil _ lost.1
    obtain ⟨t, inside, is, named, -⟩ := mem_receipts.mp tried
    have inbound := kept.inbound key t inside
    have marked : mark t ∈ tickets (r.markRead key).store key := by
      have here : tickets (r.markRead key).store key = (tickets r.store key).map mark :=
        (tickets_markRead ..).trans (if_pos rfl)
      rw [here]
      exact List.mem_map_of_mem inside
    have is_marked := readSent_mark inbound named (kept.origin key t inside w.2 named).1
    obtain ⟨e, sender, named', -, written⟩ := sent' key _ marked is_marked
    rw [envelopeId_mark, named, Option.some.injEq] at named'
    subst named'
    rcases (mem_written ..).mp written with before | ⟨is_open, -⟩
    · have unsent := ((due_iff inbound).mp is).1
      rw [kept.read key t inside w.2 named (List.mem_map.mpr ⟨_, before, rfl⟩)] at unsent
      cases unsent
    · exact lost.2 is_open
  · intro online other t member is
    obtain ⟨t₀, before, rfl⟩ := mem_markRead (s := r.store) member
    by_cases marked : t₀.readSent
    · obtain ⟨e, sender, named, came, written⟩ := sent other t₀ before marked
      refine ⟨e, sender, ?_, came, (mem_written ..).mpr (.inl written)⟩
      split
      · rw [envelopeId_mark, named]
      · exact named
    · split at is
      · next same =>
        subst same
        have is_due : due t₀ := by
          by_contra not_due
          rw [mark, if_neg not_due] at is
          exact marked is
        obtain ⟨e, named, -⟩ := receipt_of_due is_due
        obtain ⟨-, sender, came, target⟩ := kept.origin other t₀ before e named
        have tried : (.string sender, e) ∈ (r.store.markRead other).2 :=
          mem_receipts.mpr ⟨t₀, before, is_due, named, target⟩
        have is_open : sending r.client = .written :=
          online.resolve_left (List.ne_nil_of_mem tried)
        refine ⟨e, sender, ?_, came, (mem_written ..).mpr (.inr ⟨is_open, tried⟩)⟩
        rw [if_pos rfl, envelopeId_mark, named]
      · exact absurd is marked

/-! ## Runs -/

theorem step_kept (kept : Kept r) (moved : reader.step r a = some r') : Kept r' := by
  cases a with
  | receive me m =>
    obtain ⟨fresh, same⟩ := Option.ite_none_right_eq_some.mp moved
    cases same
    exact receive_kept kept fresh
  | client a =>
    obtain ⟨client, -, rfl⟩ := Option.map_eq_some_iff.mp moved
    exact ⟨kept.senders, kept.inbound, kept.origin, kept.within, kept.across, kept.written_,
      kept.read, kept.once⟩
  | markRead key =>
    cases moved
    exact markRead_kept kept key

theorem step_sent (kept : Kept r) (sent : Sent r) (moved : reader.step r a = some r') :
    Sent r' ↔ Online r a = true := by
  cases a with
  | receive me m =>
    obtain ⟨-, same⟩ := Option.ite_none_right_eq_some.mp moved
    cases same
    exact iff_of_true (receive_sent sent me m) rfl
  | client a =>
    obtain ⟨client, -, rfl⟩ := Option.map_eq_some_iff.mp moved
    exact iff_of_true sent rfl
  | markRead key =>
    cases moved
    exact markRead_sent kept sent key

theorem reached_kept {ok : Reader → Action → Prop} (reached : reader.Reached ok r) : Kept r :=
  reached.invariant Kept (fun _ => started_kept) fun _ _ _ kept _ moved => step_kept kept moved

/-- What holds of the tickets, said of the messages. -/
theorem receipted_iff (kept : Kept r) : Receipted r ↔ Sent r := by
  constructor
  · intro receipted key t member is
    obtain ⟨m, inside, rfl⟩ := List.mem_map.mp member
    exact receipted.sent key m inside (kept.inbound key _ member) is
  · intro sent
    refine ⟨kept.senders, fun key m inside _ is => ?_,
      fun key m inside inbound e named missing => ?_, kept.once⟩
    · exact sent key (ticket key m) (List.mem_map_of_mem inside) is
    · have member : ticket key m ∈ tickets r.store key := List.mem_map_of_mem inside
      obtain ⟨filled, sender, came, target⟩ := kept.origin key _ member e named
      have unsent : (ticket key m).readSent = false := by
        rw [← Bool.not_eq_true]
        intro is
        obtain ⟨e', sender, named', -, written⟩ := sent key _ member is
        rw [show m.envelopeId = some e' from named', Option.some.injEq] at named
        subst named
        exact missing (List.mem_map.mpr ⟨_, written, rfl⟩)
      have is_due := (due_iff inbound).mpr ⟨unsent, e, named, filled⟩
      exact ⟨sender, came, mem_receipts.mpr ⟨_, member, is_due, named, target⟩⟩

theorem started_receipted (started : reader.start r) : Receipted r :=
  (receipted_iff (started_kept started)).mpr (started_sent started)

/-- The runs that mark nothing offline are those in which no receipt is lost at any time. -/
theorem reached_online_iff : reader.Reached (fun r a => Online r a = true) r ↔
    reader.Throughout Receipted r := by
  refine Machine.reached_iff_throughout (fun _ => started_receipted) ?_
  intro s a s' reachable receipted moved
  have kept := reached_kept reachable
  rw [receipted_iff (step_kept kept moved)]
  exact step_sent kept ((receipted_iff kept).mp receipted) moved

/-- **Read receipts are not lost.** The runs in which what is due is marked only while the
socket is open are those in which at all times a receipt was written, once and to the right
sender, for what is marked, and what has none is tried again. -/
theorem receipts_are_not_lost (r : Reader) :
    (reader.Reached (fun r a => Online r a = true) r ↔ reader.Throughout Receipted r) ∧
      (reader.Reached (fun r a => Online r a = true) r → Receipted r) :=
  ⟨reached_online_iff, fun reached =>
    (reached_online_iff.mp reached).holds fun _ => started_receipted⟩

def alice : Key := .user (utf16 "alice")

/-- A message from alice. -/
def greeting : Action :=
  .receive none {
    fromUserId := utf16 "alice", text := utf16 "hi", receivedAt := 0
    envelopeId := some (utf16 "e1"), verdict := none }

/-- A connection, from where `connectRelay` has its token. -/
def connects (call : Nat) : List Action :=
  [.client (.ensured call true), .client (.onOpen call), .client (.settled call)]

def signsIn : List Action :=
  [.client (.setTokens "token" ""), .client (.resume "me" false)] ++ connects 0

/-- The socket closes, alice's thread is opened, and opened again after the reconnect. -/
def readsOffline : List Action :=
  [.client (.onClose 0), .markRead alice, .client (.timer false)] ++ connects 1 ++
    [.markRead alice]

/-- The envelopes that a receipt was written for, and what is marked in alice's thread. -/
def seen (r : Reader) : List Text × List Bool :=
  (r.written.map Prod.snd, (getMessages r.store alice).map (·.readSent))

theorem read_online_is_receipted : ∃ r, seen r = ([utf16 "e1"], [true]) ∧ Receipted r := by
  have observed : (reader.checkedRun (fun r a => Online r a = true) {}
      (signsIn ++ [greeting, .markRead alice, .markRead alice])).map seen =
        some ([utf16 "e1"], [true]) := by decide +kernel
  obtain ⟨r, reached, saw⟩ := Machine.reached_of_observed observed (.start rfl)
  exact ⟨r, saw, (receipts_are_not_lost r).2 reached⟩

/-- What is read offline is marked, and gets no receipt when the client is back. -/
theorem read_offline_is_lost : ¬ ∀ r, reader.Reachable r → Receipted r := by
  intro all
  have observed : (reader.run {} (signsIn ++ [greeting] ++ readsOffline)).map seen =
      some ([], [true]) := by decide +kernel
  obtain ⟨r, reachable, saw⟩ := Machine.reachable_of_observed observed rfl
  obtain ⟨none, marked⟩ := Prod.mk.inj saw
  obtain ⟨m, rest, here, is, -⟩ := List.map_eq_cons_iff.mp marked
  have inside : m ∈ getMessages r.store alice := by
    rw [here]
    exact List.mem_cons_self
  have inbound := (reached_kept reachable).inbound alice _ (List.mem_map_of_mem inside)
  obtain ⟨e, sender, -, -, written⟩ := (all r reachable).sent alice m inside inbound is
  rw [List.map_eq_nil_iff.mp none] at written
  cases written

end Hwfa.ReadReceipts
