import Hwfa.ConversationPhone

/-!
What is left of an account after `close` and `reset`.

`reset` drops the threads and saves an empty state, but what is under way goes
on: a load may still bring the old threads back, a decryption a message, an
upload or a download an attachment, and a `sendText` that waits for a session
goes out as soon as the client has a relay again, which the next account opens.
Where all of that comes to nothing, the phone is from then on as one on which
the account has never been: what it shows, saves and sends depends on the next
account's own actions alone.
-/

namespace Hwfa.ConversationSignOut

open Hwfa.Json Hwfa.Maps Hwfa.Machines Hwfa.ConversationStore Hwfa.ConversationInbound
open Hwfa.ConversationPhone

/-! ### The next account -/

/-- An action that does not answer what was begun under an account that has been
signed out since. -/
def own : Action → Bool
  | .hydrated former _ | .deliver _ former => ! former
  | .decrypted task _ => ! task.former
  | .transmit task | .sendEnded task => ! task.former
  | .uploaded task _ => ! task.former
  | .downloaded task _ => ! task.former
  | .mediaSaved task _ => ! task.former
  | _ => true

/-- A signed-out phone with nothing on it. -/
def blank (p : Phone) : Phone where
  store := { references := p.store.references }
  accountId := p.accountId
  started := p.started
  messages := p.messages.map fun _ => cleared

/-- What can be seen of a phone, and what it has sent after the `earlier` sent. -/
structure LooksLike (earlier : List Sent) (q q' : Phone) : Prop where
  threads : q.store.convs = q'.store.convs
  listed : ∀ key ∈ q.store.listSnapshot, (q'.store.convs.lookup key).isSome
  saved : q.messages = q'.messages
  sent : q.sent = earlier ++ q'.sent

/-- From here on, the phone does what a blank one does on the same actions but
for the answers to what was under way. -/
def Isolated (p : Phone) : Prop :=
  ∀ schedule q, phone.run p schedule = some q →
    ∃ q', phone.run (blank p) (schedule.filter own) = some q' ∧ LooksLike p.sent q q'

/-- The thread has no message of that id. -/
def Absent (s : Store) (a : Attachment) : Prop := ∀ id ∈ idsAt s a.peerUserId, id ≠ a.messageId

instance (s : Store) (a : Attachment) : Decidable (Absent s a) :=
  inferInstanceAs (Decidable (∀ id ∈ idsAt s a.peerUserId, id ≠ a.messageId))

/-- A body that leaves the store as it is: the signal of a call, a status, or a
marker before nothing that parses. -/
def IsIgnored (text : Text) : Prop :=
  (isTypingBody text → ¬ (parseTypingBody text).truthy) ∧ ¬ IsChat text ∧
    (isGroupBody text → ¬ (parseGroupBody text).truthy)

instance (text : Text) : Decidable (IsIgnored text) := by
  unfold IsIgnored IsChat
  infer_instance

/-- What is begun under an account that has been signed out comes to nothing: a
load finds nothing saved, a decryption fails or brings nothing for a thread and
no typing signal, a text finds no relay, and an attachment finds neither its
message nor, if it was uploaded, a relay. -/
def Quiet (p : Phone) : Action → Prop
  | .hydrated true true => ∀ task ∈ p.loading, ∀ data ∈ task.work,
      data.counter = 0 ∧ data.conversations.length = 0
  | .decrypted task outcome => task.former → p.started → ∀ o ∈ outcome, IsIgnored o.text
  | .transmit task => task.former → p.relay = false
  | .uploaded task reply => task.former →
      Absent p.store { peerUserId := task.work.peerUserId, messageId := task.work.messageId } ∧
        (reply.isSome → p.connected = false)
  | .downloaded task _ => task.former → Absent p.store task.work
  | .mediaSaved task written => task.former → written → Absent p.store task.work
  | _ => True

instance (p : Phone) : ∀ action, Decidable (Quiet p action)
  | .hydrated true true => inferInstanceAs (Decidable (∀ task ∈ p.loading, ∀ data ∈ task.work,
      data.counter = 0 ∧ data.conversations.length = 0))
  | .decrypted task outcome => inferInstanceAs (Decidable
      (task.former → p.started → ∀ o ∈ outcome, IsIgnored o.text))
  | .transmit task => inferInstanceAs (Decidable (task.former → p.relay = false))
  | .uploaded task reply => inferInstanceAs (Decidable (task.former →
      Absent p.store { peerUserId := task.work.peerUserId, messageId := task.work.messageId } ∧
        (reply.isSome → p.connected = false)))
  | .downloaded task _ => inferInstanceAs (Decidable (task.former → Absent p.store task.work))
  | .mediaSaved task written =>
    inferInstanceAs (Decidable (task.former → written → Absent p.store task.work))
  | .hydrated true false | .hydrated false _ | .start | .save _ | .kill | .signIn _ | .connect
  | .disconnect | .close | .reset _ | .deliver _ _ | .sendEnded _ | .setPeerIdentity _ _
  | .ensurePeer _ _ | .send _ _ _ | .createGroup _ _ _ _ | .sendTyping _ _ | .sendMedia _ _ _
  | .loadMedia _ _ | .saveMedia _ _ | .applyStatus _ _ | .markRead _ | .toggleStar _ _
  | .dismissScamWarning _ _ => .isTrue trivial

/-! ### Stores that hold the same -/

/-- The same threads, whenever they were listed. -/
structure Twin (s t : Store) : Prop where
  convs : s.convs = t.convs
  counter : s.counter = t.counter
  references : s.references = t.references
  listed : ∀ key ∈ s.listSnapshot, (s.convs.lookup key).isSome

namespace Twin

variable {s t : Store}

theorem listed_rebuild (s : Store) :
    ∀ key ∈ s.rebuild.listSnapshot, (s.rebuild.convs.lookup key).isSome := by
  intro key member
  obtain ⟨e, inside, rfl⟩ := List.mem_map.mp member
  have entry : e ∈ s.convs.entries := List.mem_mergeSort.mp inside
  rw [AList.lookup_isSome]
  exact AList.mem_keys.mpr (List.mem_map_of_mem entry)

theorem rebuilt (convs : s.convs = t.convs) (counter : s.counter = t.counter)
    (references : s.references = t.references) : Twin s.rebuild t.rebuild :=
  ⟨convs, counter, references, listed_rebuild s⟩

variable (twin : Twin s t)

include twin

theorem ensure (key : Key) : s.ensure key = t.ensure key := by
  rw [Store.ensure, twin.convs, Store.ensure]

theorem keyOf (v : Value) : s.keyOf v = t.keyOf v := by
  cases v with
  | primitive p => rfl
  | array elements => exact congrArg (Key.object · _) twin.references
  | object members => exact congrArg (Key.object · _) twin.references

theorem set (key : Key) (conv : Conversation) : Twin (s.set key conv) (t.set key conv) where
  convs := congrArg (FinMap.put · key conv) twin.convs
  counter := twin.counter
  references := twin.references
  listed other member := by
    rw [lookup_set]
    split
    · rfl
    · exact twin.listed other member

theorem rebuild : Twin s.rebuild t.rebuild :=
  rebuilt twin.convs twin.counter twin.references

theorem reset : Twin s.reset t.reset := rebuilt rfl rfl twin.references

/-- Listing the threads anew, or an empty state that is brought back, changes
nothing that can be seen. -/
theorem hydrate_nothing {data : PersistedState} (uncounted : data.counter = 0)
    (unlisted : data.conversations.length = 0) : Twin (s.hydrate data) t := by
  unfold Store.hydrate
  rw [uncounted, Nat.max_zero, List.eq_nil_of_length_eq_zero unlisted]
  exact ⟨twin.convs, twin.counter, twin.references, listed_rebuild _⟩

theorem counted : Twin { s with counter := s.counter + 1 } { t with counter := t.counter + 1 } where
  convs := twin.convs
  counter := congrArg (· + 1) twin.counter
  references := twin.references
  listed := twin.listed

theorem parsed :
    Twin { s with references := s.references + 1 } { t with references := t.references + 1 } where
  convs := twin.convs
  counter := twin.counter
  references := congrArg (· + 1) twin.references
  listed := twin.listed

theorem patch (key : Key) (id : Text) (fields : ChatMessage → ChatMessage) :
    Twin (s.patch key id fields) (t.patch key id fields) := by
  unfold Store.patch
  rw [twin.convs]
  split
  · split
    · exact (twin.set _ _).rebuild
    · exact twin
  · exact twin

theorem setPeerIdentity (key : Key) (identity : Text) :
    Twin (s.setPeerIdentity key identity) (t.setPeerIdentity key identity) := by
  unfold Store.setPeerIdentity
  rw [twin.convs]
  split
  · split
    · exact twin
    · exact (twin.set _ _).rebuild
  · exact twin

theorem ensurePeer (key : Key) (phone : Option Text) :
    Twin (s.ensurePeer key phone) (t.ensurePeer key phone) := by
  unfold Store.ensurePeer
  rw [twin.ensure]
  dsimp only
  split
  · split
    · exact twin.set _ _
    · exact (twin.set _ _).rebuild
  · exact twin.set _ _

theorem make (text : Value) (mine : Bool) (now : Nat) :
    (s.make text mine now).1 = (t.make text mine now).1 := by
  unfold Store.make
  rw [twin.counter]

theorem clientRef (now : Nat) : s.clientRef now = t.clientRef now := by
  unfold Store.clientRef
  rw [twin.counter]

theorem sendGroup (me : Option Text) (key : Key) (conv : Conversation) (group : GroupInfo)
    (text : Text) (now : Nat) :
    Twin (s.sendGroup me key conv group text now).1 (t.sendGroup me key conv group text now).1 := by
  unfold Store.sendGroup
  dsimp only
  rw [twin.make]
  exact (twin.counted.set _ _).rebuild

theorem send (me : Option Text) (key : Key) (text : Text) (now : Nat) :
    Twin (s.send me key text now).1 (t.send me key text now).1 ∧
      (s.send me key text now).2 = (t.send me key text now).2 := by
  unfold Store.send
  rw [twin.ensure]
  dsimp only
  split
  · exact ⟨twin.sendGroup me key _ _ text now, rfl⟩
  · have ref : (s.make (.string text) true now).2.clientRef now =
        (t.make (.string text) true now).2.clientRef now := twin.counted.clientRef now
    rw [twin.make, ref]
    exact ⟨(twin.counted.set _ _).rebuild, rfl⟩

theorem createGroup (gid name : Text) (members : List Text) (now : Nat) :
    Twin (s.createGroup gid name members now) (t.createGroup gid name members now) := by
  unfold Store.createGroup
  rw [twin.ensure]
  exact (twin.set _ _).rebuild

theorem sendTyping (me : Option Text) (key : Key) (typing : Bool) :
    s.sendTyping me key typing = t.sendTyping me key typing := by
  unfold Store.sendTyping
  rw [twin.convs]

theorem sendMedia (key : Key) (media : MediaPlaintext) (now : Nat) :
    Twin (s.sendMedia key media now).1 (t.sendMedia key media now).1 ∧
      (s.sendMedia key media now).2 = (t.sendMedia key media now).2 := by
  unfold Store.sendMedia
  rw [twin.ensure]
  dsimp only
  rw [twin.make, show (s.make _ true now).2.clientRef now = (t.make _ true now).2.clientRef now from
    twin.counted.clientRef now]
  exact ⟨(twin.counted.set _ _).rebuild, rfl⟩

theorem uploaded (key : Key) (id ref : Text) (reply : Option Value) :
    Twin (s.uploaded key id ref reply).1 (t.uploaded key id ref reply).1 ∧
      (s.uploaded key id ref reply).2 = (t.uploaded key id ref reply).2 := by
  cases reply with
  | none => exact ⟨twin.patch .., rfl⟩
  | some media => exact ⟨twin.patch .., rfl⟩

theorem loaded (key : Key) (id : Text) (reply : Option Text) :
    Twin (s.loaded key id reply) (t.loaded key id reply) := by
  cases reply with
  | none => exact twin.patch ..
  | some uri => exact twin.patch ..

theorem applyStatus (ref : Text) (status : MessageStatus) :
    Twin (s.applyStatus ref status) (t.applyStatus ref status) := by
  unfold Store.applyStatus
  rw [twin.convs]
  dsimp only
  split
  · split
    · exact twin
    · exact (twin.set _ _).rebuild
  · exact twin

theorem markRead (key : Key) :
    Twin (s.markRead key).1 (t.markRead key).1 ∧ (s.markRead key).2 = (t.markRead key).2 := by
  unfold Store.markRead
  rw [twin.convs]
  split
  · refine ⟨?_, rfl⟩
    dsimp only
    split
    · exact (twin.set _ _).rebuild
    · exact twin.set _ _
  · exact ⟨twin, rfl⟩

theorem editMessages (key : Key) (id : Text) (edit : ChatMessage → ChatMessage) :
    Twin (s.editMessages key id edit) (t.editMessages key id edit) := by
  unfold Store.editMessages
  rw [twin.convs]
  split
  · exact (twin.set _ _).rebuild
  · exact twin

theorem hydrateOne (c : Conversation) : Twin (s.hydrateOne c) (t.hydrateOne c) := by
  have same (key : Key) : s.convs.lookup key = t.convs.lookup key := by rw [twin.convs]
  unfold Store.hydrateOne
  rw [twin.keyOf]
  dsimp only
  rw [same]
  split
  · exact twin.parsed.set _ _
  · exact twin.parsed.set _ _

theorem hydrate (data : PersistedState) : Twin (s.hydrate data) (t.hydrate data) := by
  suffices general : ∀ (list : List Conversation) (s t : Store), Twin s t →
      Twin (list.foldl Store.hydrateOne s) (list.foldl Store.hydrateOne t) by
    refine (general data.conversations _ _ ?_).rebuild
    exact
      { convs := twin.convs
        counter := congrArg (max · data.counter) twin.counter
        references := twin.references
        listed := twin.listed }
  intro list
  induction list with
  | nil => exact fun s t twin => twin
  | cons c rest ih => exact fun s t twin => ih _ _ (twin.hydrateOne c)

theorem receiveGroup (me : Option Text) (m : Inbound) (payload : Value) :
    Twin (s.receiveGroup me m payload).store (t.receiveGroup me m payload).store ∧
      (s.receiveGroup me m payload).handoff = (t.receiveGroup me m payload).handoff := by
  unfold Store.receiveGroup
  rw [twin.keyOf]
  dsimp only
  rw [twin.parsed.ensure]
  cases Store.roster me (payload.get "members") with
  | none => exact ⟨twin.parsed.set _ _, rfl⟩
  | some members =>
    dsimp only
    rw [twin.parsed.make]
    exact ⟨(twin.parsed.counted.set _ _).rebuild, rfl⟩

theorem receiveChat (m : Inbound) :
    Twin (s.receiveChat m).store (t.receiveChat m).store ∧
      (s.receiveChat m).handoff = (t.receiveChat m).handoff := by
  unfold Store.receiveChat
  dsimp only
  rw [twin.ensure]
  split
  · split
    · exact ⟨twin.set _ _, rfl⟩
    · rw [twin.make]
      split
      · exact ⟨(twin.counted.set _ _).rebuild.patch .., rfl⟩
      · exact ⟨(twin.counted.set _ _).rebuild, rfl⟩
  · rw [twin.make]
    exact ⟨(twin.counted.set _ _).rebuild, rfl⟩

theorem receive (me : Option Text) (m : Inbound) :
    Twin (s.receive me m).store (t.receive me m).store ∧
      (s.receive me m).handoff = (t.receive me m).handoff := by
  have same (key : Key) : s.convs.lookup key = t.convs.lookup key := by rw [twin.convs]
  unfold Store.receive
  dsimp only
  rw [twin.keyOf, same]
  split
  · split
    · exact ⟨twin.parsed, rfl⟩
    · exact ⟨twin, rfl⟩
  · split
    · exact ⟨twin, rfl⟩
    · split
      · split
        · exact twin.receiveGroup me m _
        · exact ⟨twin, rfl⟩
      · split
        · exact ⟨twin, rfl⟩
        · exact twin.receiveChat m

theorem schedulePersist : schedulePersist s = schedulePersist t := by
  unfold ConversationPhone.schedulePersist
  rw [twin.convs, twin.counter]

theorem named (key : Key) : named s key = named t key := by
  unfold ConversationPhone.named
  rw [twin.convs]

end Twin

/-! ### Phones that do the same -/

/-- What an account that has not been signed out has under way. -/
def ownTasks {α : Type} (tasks : List (Pending α)) : List (Pending α) := tasks.filter (! ·.former)

def ownLoad (p : Phone) : Option (Pending (Option PersistedState)) := p.loading.filter (! ·.former)

/-- A phone does what another one does, but for what is under way from accounts
that have been signed out. -/
structure Follows (earlier : List Sent) (q q' : Phone) : Prop where
  store : Twin q.store q'.store
  accountId : q.accountId = q'.accountId
  relay : q.relay = q'.relay
  started : q.started = q'.started
  messages : q.messages = q'.messages
  loading : ownLoad q = ownLoad q'
  decrypts : ownTasks q.decrypts = ownTasks q'.decrypts
  uploads : ownTasks q.uploads = ownTasks q'.uploads
  downloads : ownTasks q.downloads = ownTasks q'.downloads
  saves : ownTasks q.saves = ownTasks q'.saves
  sends : ownTasks q.sends = ownTasks q'.sends
  sent : q.sent = earlier ++ q'.sent

theorem ownLoad_reset (p : Phone) (written : Bool) : ownLoad (p.reset written) = none := by
  unfold ownLoad Phone.reset
  cases p.loading <;> rfl

section

variable {α : Type} {tasks tasks' : List (Pending α)} {task : Pending α}

theorem ownTasks_retired (tasks : List (Pending α)) : ownTasks (tasks.map Pending.retire) = [] := by
  rw [ownTasks, List.filter_eq_nil_iff]
  intro task member
  obtain ⟨earlier, -, rfl⟩ := List.mem_map.mp member
  exact Bool.false_ne_true

theorem ownTasks_append (tasks more : List (Pending α)) :
    ownTasks (tasks ++ more) = ownTasks tasks ++ ownTasks more := List.filter_append ..

theorem own_append (same : ownTasks tasks = ownTasks tasks') (more : List (Pending α)) :
    ownTasks (tasks ++ more) = ownTasks (tasks' ++ more) := by
  rw [ownTasks_append, ownTasks_append, same]

theorem own_retired (tasks tasks' : List (Pending α)) :
    ownTasks (tasks.map Pending.retire) = ownTasks (tasks'.map Pending.retire) :=
  (ownTasks_retired tasks).trans (ownTasks_retired tasks').symm

theorem ownTasks_former (task : Pending α) (former : task.former) :
    ownTasks (tasks ++ [task]) = ownTasks tasks := by
  rw [ownTasks_append, ownTasks, ownTasks, List.filter_cons_of_neg (by simp [former])]
  exact List.append_nil _

/-- One's own task is there as well. -/
theorem mem_of_own (same : ownTasks tasks = ownTasks tasks') (mine : task.former = false)
    (member : task ∈ tasks) : task ∈ tasks' := by
  have inside : task ∈ ownTasks tasks := List.mem_filter.mpr ⟨member, by simp [mine]⟩
  rw [same] at inside
  exact (List.mem_filter.mp inside).1

variable [DecidableEq α]

theorem own_erase (same : ownTasks tasks = ownTasks tasks') :
    ownTasks (tasks.erase task) = ownTasks (tasks'.erase task) := by
  rw [ownTasks, ownTasks, ← List.erase_filter, ← List.erase_filter]
  exact congrArg (List.erase · task) same

theorem own_erase_former (former : task.former) : ownTasks (tasks.erase task) = ownTasks tasks := by
  rw [ownTasks, ← List.erase_filter, List.erase_of_not_mem]
  · rfl
  · intro inside
    simp [former] at inside

end

namespace Follows

variable {earlier : List Sent} {q q' : Phone} (follows : Follows earlier q q')

include follows

theorem connected : q.connected = q'.connected := by
  rw [Phone.connected, follows.relay, follows.accountId, Phone.connected]

theorem withStore {s t : Store} (twin : Twin s t) :
    Follows earlier { q with store := s } { q' with store := t } :=
  { follows with store := twin }

theorem sendTexts {outbounds outbounds' : List Outbound} (same : outbounds = outbounds') :
    Follows earlier (q.sendTexts outbounds false) (q'.sendTexts outbounds' false) := by
  unfold Phone.sendTexts
  rw [follows.connected, same]
  split
  · exact { follows with
      sends := own_append follows.sends _ }
  · exact follows

theorem handOver {out out' : List Sent} (same : out = out') :
    Follows earlier (q.handOver out) (q'.handOver out') := by
  have relay := follows.relay
  unfold Phone.handOver
  by_cases there : q.relay
  · rw [if_pos there, if_pos (relay ▸ there)]
    exact { follows with
      sent := by rw [follows.sent, same, List.append_assoc] }
  · rw [if_neg there, if_neg (relay ▸ there)]
    exact follows

theorem receive (m : Inbound) :
    Twin (q.store.receive q.accountId m).store (q'.store.receive q'.accountId m).store ∧
      (q.store.receive q.accountId m).handoff = (q'.store.receive q'.accountId m).handoff := by
  rw [follows.accountId]
  exact follows.store.receive q'.accountId m

theorem send (key : Key) (text : Text) (now : Nat) :
    Twin (q.store.send q.accountId key text now).1 (q'.store.send q'.accountId key text now).1 ∧
      (q.store.send q.accountId key text now).2 =
        (q'.store.send q'.accountId key text now).2 := by
  rw [follows.accountId]
  exact follows.store.send q'.accountId key text now

theorem received (m : Inbound) : Follows earlier (q.received m false) (q'.received m false) := by
  obtain ⟨twin, handoff⟩ := follows.receive m
  have started := follows.started
  unfold Phone.received
  by_cases there : q.started
  · rw [if_pos there, if_pos (started ▸ there)]
    dsimp only
    rw [handoff]
    exact { follows with
      store := twin
      downloads := own_append follows.downloads _ }
  · rw [if_neg there, if_neg (started ▸ there)]
    exact follows

theorem mediaUploaded (task : Pending Upload) (reply : Option MediaReference)
    (mine : task.former = false) :
    Follows earlier (q.mediaUploaded task reply) (q'.mediaUploaded task reply) := by
  obtain ⟨twin, outbounds⟩ := follows.store.uploaded task.work.peerUserId task.work.messageId
    task.work.clientRef (reply.map (·.value))
  unfold Phone.mediaUploaded
  rw [follows.connected]
  dsimp only
  split
  · exact follows.withStore (twin.patch ..)
  · rw [mine]
    exact (follows.withStore twin).sendTexts outbounds

theorem reset (written : Bool) : Follows earlier (q.reset written) (q'.reset written) where
  store := follows.store.reset
  accountId := follows.accountId
  relay := follows.relay
  started := follows.started
  messages := by
    cases written with
    | true => rfl
    | false => exact follows.messages
  loading := (ownLoad_reset q written).trans (ownLoad_reset q' written).symm
  decrypts := own_retired ..
  uploads := own_retired ..
  downloads := own_retired ..
  saves := own_retired ..
  sends := own_retired ..
  sent := follows.sent

theorem hydrated {q₁ : Phone} {read : Bool} (moved : q.step (.hydrated false read) = some q₁) :
    ∃ q₁', q'.step (.hydrated false read) = some q₁' ∧ Follows earlier q₁ q₁' := by
  obtain ⟨task, waits, mine, rfl⟩ := step_hydrated moved
  have load : ownLoad q' = some task := by
    rw [← follows.loading, ownLoad, waits, Option.filter_some, if_pos (by simp [mine])]
  have waits' : q'.loading = some task := (Option.filter_eq_some_iff.mp load).1
  have does : q'.step (.hydrated false read) = some { q' with
      store := (if read then task.work else none).elim q'.store q'.store.hydrate
      loading := none } := by
    unfold Phone.step
    dsimp only
    rw [waits']
    exact if_pos mine
  refine ⟨_, does, ?_⟩
  exact { follows with
    store := by
      cases (if read then task.work else none) with
      | none => exact follows.store
      | some data => exact follows.store.hydrate data
    loading := rfl }

theorem killed : Follows earlier { messages := q.messages, sent := q.sent }
    { messages := q'.messages, sent := q'.sent } where
  store := ⟨rfl, rfl, rfl, fun key member => by cases member⟩
  accountId := rfl
  relay := rfl
  started := rfl
  messages := follows.messages
  loading := rfl
  decrypts := rfl
  uploads := rfl
  downloads := rfl
  saves := rfl
  sends := rfl
  sent := follows.sent

/-- A decryption has ended. -/
theorem decrypted (task : Pending Sealed) (outcome : Option Opened) (mine : task.former = false) :
    Follows earlier
      (outcome.elim { q with decrypts := q.decrypts.erase task } fun o =>
        { q with decrypts := q.decrypts.erase task }.received (task.work.inbound o) task.former)
      (outcome.elim { q' with decrypts := q'.decrypts.erase task } fun o =>
        { q' with decrypts := q'.decrypts.erase task }.received (task.work.inbound o)
          task.former) := by
  have erased : Follows earlier { q with decrypts := q.decrypts.erase task }
      { q' with decrypts := q'.decrypts.erase task } :=
    { follows with decrypts := own_erase follows.decrypts }
  cases outcome with
  | none => exact erased
  | some o =>
    rw [Option.elim_some, Option.elim_some, mine]
    exact erased.received _

/-- An upload begins. -/
theorem uploading (key : Key) {begun begun' : Store × Text × Text} (twin : Twin begun.1 begun'.1)
    (task : begun.2 = begun'.2) :
    Follows earlier
      { q with
        store := begun.1
        uploads := q.uploads ++ [{ work :=
          { peerUserId := key, messageId := begun.2.1, clientRef := begun.2.2 } }] }
      { q' with
        store := begun'.1
        uploads := q'.uploads ++ [{ work :=
          { peerUserId := key, messageId := begun'.2.1, clientRef := begun'.2.2 } }] } := by
  rw [task]
  exact { follows with
    store := twin
    uploads := own_append follows.uploads _ }

omit follows in
/-- Where one phone can take a step, the other one can. -/
theorem guarded {p p' : Prop} [Decidable p] [Decidable p'] {q₁ r r' : Phone}
    (moved : (if p then some r else none) = some q₁) (also : p → p')
    (next : p → Follows earlier r r') :
    ∃ q₁', (if p' then some r' else none) = some q₁' ∧ Follows earlier q₁ q₁' := by
  obtain ⟨can, same⟩ := Option.ite_none_right_eq_some.mp moved
  cases same
  exact ⟨r', if_pos (also can), next can⟩

/-- What the one phone does of its own account, the other does as well. -/
theorem step {q₁ : Phone} {action : Action} (mine : own action)
    (moved : q.step action = some q₁) :
    ∃ q₁', q'.step action = some q₁' ∧ Follows earlier q₁ q₁' := by
  cases action with
  | start =>
    obtain ⟨idle, same⟩ := Option.ite_none_left_eq_some.mp moved
    cases same
    refine ⟨_, Option.ite_none_left_eq_some.mpr ⟨follows.started ▸ idle, rfl⟩, ?_⟩
    exact { follows with
      started := rfl
      loading := by
        rw [ownLoad, ownLoad, follows.messages] }
  | hydrated former read =>
    cases former with
    | true => cases mine
    | false => exact follows.hydrated moved
  | save written =>
    cases moved
    refine ⟨_, rfl, ?_⟩
    cases written with
    | true => exact { follows with messages := congrArg some follows.store.schedulePersist }
    | false => exact follows
  | kill =>
    cases moved
    exact ⟨_, rfl, follows.killed⟩
  | signIn userId =>
    cases moved
    exact ⟨_, rfl, { follows with accountId := rfl, relay := rfl }⟩
  | connect =>
    cases moved
    exact ⟨_, rfl, { follows with relay := congrArg Option.isSome follows.accountId }⟩
  | disconnect | close =>
    cases moved
    exact ⟨_, rfl, { follows with relay := rfl }⟩
  | reset written =>
    cases moved
    exact ⟨_, rfl, follows.reset written⟩
  | deliver envelope former =>
    cases moved
    exact ⟨_, rfl, { follows with decrypts := own_append follows.decrypts _ }⟩
  | decrypted task outcome =>
    have fresh : task.former = false := by simpa [own] using mine
    exact guarded moved (And.imp_left (mem_of_own follows.decrypts fresh)) fun _ =>
      follows.decrypted task outcome fresh
  | transmit task =>
    have fresh : task.former = false := by simpa [own] using mine
    exact guarded moved (mem_of_own follows.sends fresh) fun _ => follows.handOver rfl
  | sendEnded task =>
    have fresh : task.former = false := by simpa [own] using mine
    exact guarded moved (mem_of_own follows.sends fresh) fun _ =>
      { follows with sends := own_erase follows.sends }
  | setPeerIdentity key identity =>
    cases moved
    exact ⟨_, rfl, follows.withStore (follows.store.setPeerIdentity key identity)⟩
  | ensurePeer key phone =>
    exact guarded moved (follows.store.named key ▸ id) fun _ =>
      follows.withStore (follows.store.ensurePeer key phone)
  | send key text now =>
    obtain ⟨twin, outbounds⟩ := follows.send key text now
    exact guarded moved (follows.store.named key ▸ id) fun _ =>
      (follows.withStore twin).sendTexts outbounds
  | createGroup name members now random =>
    cases moved
    exact ⟨_, rfl, follows.withStore (follows.store.createGroup _ name members now)⟩
  | sendTyping key typing =>
    cases moved
    refine ⟨_, rfl, follows.sendTexts ?_⟩
    rw [follows.store.sendTyping, follows.accountId]
  | sendMedia key media now =>
    obtain ⟨twin, task⟩ := follows.store.sendMedia key media now
    exact guarded moved (follows.store.named key ▸ id) fun _ => follows.uploading key twin task
  | uploaded task reply =>
    have fresh : task.former = false := by simpa [own] using mine
    have erased : Follows earlier { q with uploads := q.uploads.erase task }
        { q' with uploads := q'.uploads.erase task } :=
      { follows with uploads := own_erase follows.uploads }
    exact guarded moved (mem_of_own follows.uploads fresh) fun _ =>
      erased.mediaUploaded task reply fresh
  | loadMedia key id =>
    cases moved
    exact ⟨_, rfl, { follows with
      store := follows.store.patch ..
      downloads := own_append follows.downloads _ }⟩
  | downloaded task reply =>
    have fresh : task.former = false := by simpa [own] using mine
    exact guarded moved (mem_of_own follows.downloads fresh) fun _ =>
      { follows with
        store := follows.store.loaded ..
        downloads := own_erase follows.downloads }
  | saveMedia key id =>
    cases moved
    exact ⟨_, rfl, { follows with saves := own_append follows.saves _ }⟩
  | mediaSaved task written =>
    have fresh : task.former = false := by simpa [own] using mine
    refine guarded moved (mem_of_own follows.saves fresh) fun _ =>
      { follows with
        store := ?_
        saves := own_erase follows.saves }
    cases written with
    | true => exact follows.store.patch ..
    | false => exact follows.store
  | applyStatus ref status =>
    cases moved
    exact ⟨_, rfl, follows.withStore (follows.store.applyStatus ref status)⟩
  | markRead key =>
    cases moved
    obtain ⟨twin, receipts⟩ := follows.store.markRead key
    exact ⟨_, rfl, (follows.withStore twin).handOver (congrArg _ receipts)⟩
  | toggleStar key id =>
    cases moved
    exact ⟨_, rfl, follows.withStore (follows.store.editMessages ..)⟩
  | dismissScamWarning key id =>
    cases moved
    exact ⟨_, rfl, follows.withStore (follows.store.editMessages ..)⟩

end Follows

/-! ### What was under way -/

/-- An attachment's answer finds no message. -/
theorem patch_absent {s : Store} {a : Attachment} (fields : ChatMessage → ChatMessage)
    (gone : Absent s a) : s.patch a.peerUserId a.messageId fields = s := by
  unfold Store.patch
  cases there : s.convs.lookup a.peerUserId with
  | none => rfl
  | some conv =>
    have unfound : (conv.messages.findIdx? fun m => m.id = a.messageId) = none := by
      rw [List.findIdx?_eq_none_iff]
      intro m member
      have inside : m.id ∈ idsAt s a.peerUserId := by
        rw [idsAt, getMessages, there]
        exact List.mem_map_of_mem member
      simp [gone m.id inside]
    dsimp only
    rw [unfound]

theorem receive_ignored {m : Inbound} (s : Store) (me : Option Text) (ignored : IsIgnored m.text) :
    (s.receive me m).store = s ∧
      ∀ key id media, (s.receive me m).handoff ≠ some (.download key id media) := by
  obtain ⟨unsignalled, unchat, ungrouped⟩ := ignored
  unfold Store.receive
  dsimp only
  split
  · next typing =>
    rw [if_neg (unsignalled typing)]
    exact ⟨rfl, fun _ _ _ => by simp⟩
  · next untyped =>
    split
    · refine ⟨rfl, fun _ _ _ => ?_⟩
      dsimp only
      split <;> simp
    · next uncalled =>
      split
      · next grouped =>
        rw [if_neg (ungrouped grouped)]
        exact ⟨rfl, fun _ _ _ => by simp⟩
      · next apart =>
        split
        · refine ⟨rfl, fun _ _ _ => ?_⟩
          dsimp only
          split <;> simp
        · next unposted => exact absurd ⟨untyped, uncalled, apart, unposted⟩ unchat

theorem received_ignored (p : Phone) {m : Inbound} (former : Bool)
    (ignored : p.started → IsIgnored m.text) : p.received m former = p := by
  unfold Phone.received
  split
  · next started =>
    obtain ⟨kept, undownloaded⟩ := receive_ignored p.store p.accountId (ignored started)
    dsimp only
    rw [kept]
    split
    · next found => exact absurd found (undownloaded _ _ _)
    · rw [List.append_nil]
  · rfl

/-- What is uploaded for no message is not sent without a relay. -/
theorem mediaUploaded_absent {p : Phone} {task : Pending Upload} (reply : Option MediaReference)
    (gone : Absent p.store
      { peerUserId := task.work.peerUserId, messageId := task.work.messageId })
    (offline : reply.isSome → p.connected = false) : p.mediaUploaded task reply = p := by
  unfold Phone.mediaUploaded
  cases reply with
  | none =>
    simp only [Option.map_none, Store.uploaded, patch_absent _ gone]
    simp [Phone.sendTexts]
  | some reference =>
    simp only [Option.map_some, Store.uploaded, patch_absent _ gone, offline rfl]
    simp

theorem Follows.stale {earlier : List Sent} {q q' q₁ : Phone} {action : Action}
    (follows : Follows earlier q q') (stale : own action = false) (quiet : Quiet q action)
    (moved : q.step action = some q₁) : Follows earlier q₁ q' := by
  cases action with
  | hydrated former read =>
    obtain rfl : former = true := by simpa [own] using stale
    obtain ⟨task, waits, was, rfl⟩ := step_hydrated moved
    have unloaded : ownLoad q = none := by
      rw [ownLoad, waits, Option.filter_some, if_neg (by simp [was])]
    refine { follows with
      store := ?_
      loading := unloaded.symm.trans follows.loading }
    cases read with
    | false => exact follows.store
    | true =>
      rw [if_pos rfl]
      cases found : task.work with
      | none => exact follows.store
      | some data =>
        obtain ⟨uncounted, unlisted⟩ := quiet task waits data found
        exact follows.store.hydrate_nothing uncounted unlisted
  | deliver envelope former =>
    cases moved
    obtain rfl : former = true := by simpa [own] using stale
    exact { follows with decrypts := (ownTasks_former _ rfl).trans follows.decrypts }
  | decrypted task outcome =>
    obtain ⟨-, same⟩ := Option.ite_none_right_eq_some.mp moved
    cases same
    have former : task.former := by simpa [own] using stale
    have erased : Follows earlier { q with decrypts := q.decrypts.erase task } q' :=
      { follows with decrypts := (own_erase_former former).trans follows.decrypts }
    cases outcome with
    | none => exact erased
    | some o =>
      have kept := received_ignored { q with decrypts := q.decrypts.erase task }
        (m := task.work.inbound o) task.former fun started => quiet former started o rfl
      rw [Option.elim_some, kept]
      exact erased
  | transmit task =>
    obtain ⟨-, same⟩ := Option.ite_none_right_eq_some.mp moved
    cases same
    have gone := quiet (by simpa [own] using stale)
    rw [Phone.handOver, if_neg (by simp [gone])]
    exact follows
  | sendEnded task =>
    obtain ⟨-, same⟩ := Option.ite_none_right_eq_some.mp moved
    cases same
    exact { follows with
      sends := (own_erase_former (by simpa [own] using stale)).trans follows.sends }
  | uploaded task reply =>
    obtain ⟨-, same⟩ := Option.ite_none_right_eq_some.mp moved
    cases same
    have former : task.former := by simpa [own] using stale
    obtain ⟨gone, offline⟩ := quiet former
    have erased : Follows earlier { q with uploads := q.uploads.erase task } q' :=
      { follows with uploads := (own_erase_former former).trans follows.uploads }
    have kept := mediaUploaded_absent (p := { q with uploads := q.uploads.erase task }) reply gone
      offline
    rw [kept]
    exact erased
  | downloaded task reply =>
    obtain ⟨-, same⟩ := Option.ite_none_right_eq_some.mp moved
    cases same
    have former : task.former := by simpa [own] using stale
    have kept : q.store.loaded task.work.peerUserId task.work.messageId reply = q.store := by
      cases reply with
      | none => exact patch_absent _ (quiet former)
      | some uri => exact patch_absent _ (quiet former)
    exact { follows with
      store := by
        rw [kept]
        exact follows.store
      downloads := (own_erase_former former).trans follows.downloads }
  | mediaSaved task written =>
    obtain ⟨-, same⟩ := Option.ite_none_right_eq_some.mp moved
    cases same
    have former : task.former := by simpa [own] using stale
    refine { follows with
      store := ?_
      saves := (own_erase_former former).trans follows.saves }
    cases written with
    | false => exact follows.store
    | true =>
      have kept := patch_absent (fun m => { m with mediaSaved := true }) (quiet former rfl)
      rw [if_pos rfl, Store.mediaSaved, kept]
      exact follows.store
  | _ => cases stale

/-! ### The next account is by itself -/

theorem Follows.run {earlier : List Sent} {q q' r : Phone} {schedule : List Action}
    (follows : Follows earlier q q') (ran : phone.checkedRun Quiet q schedule = some r) :
    ∃ r', phone.run q' (schedule.filter own) = some r' ∧ Follows earlier r r' := by
  induction schedule generalizing q q' with
  | nil =>
    cases ran
    exact ⟨q', rfl, follows⟩
  | cons action rest ih =>
    simp only [Machine.checkedRun, Option.ite_none_right_eq_some, Option.bind_eq_some_iff] at ran
    obtain ⟨quiet, next, moved, ran⟩ := ran
    cases mine : own action with
    | true =>
      obtain ⟨next', moved', follows'⟩ := follows.step mine moved
      obtain ⟨r', ran', follows''⟩ := ih follows' ran
      refine ⟨r', ?_, follows''⟩
      rw [List.filter_cons_of_pos mine, Machine.run, show phone.step q' action = _ from moved']
      exact ran'
    | false =>
      rw [List.filter_cons_of_neg (by simp [mine])]
      exact ih (follows.stale mine quiet moved) ran

theorem Follows.looksLike {earlier : List Sent} {q q' : Phone} (follows : Follows earlier q q') :
    LooksLike earlier q q' where
  threads := follows.store.convs
  listed := by
    rw [← follows.store.convs]
    exact follows.store.listed
  saved := follows.messages
  sent := follows.sent

/-- A phone that has been reset is a blank one, but for what is under way. -/
theorem follows_reset {p : Phone} {written : Bool} (closed : p.relay = false)
    (saved : ∀ data ∈ (p.reset written).messages, data = cleared) :
    Follows p.sent (p.reset written) (blank (p.reset written)) where
  store := ⟨rfl, rfl, rfl, Twin.listed_rebuild _⟩
  accountId := rfl
  relay := closed
  started := rfl
  messages := by
    rw [blank]
    cases found : (p.reset written).messages with
    | none => rfl
    | some data => rw [saved data found, Option.map_some]
  loading := ownLoad_reset p written
  decrypts := ownTasks_retired _
  uploads := ownTasks_retired _
  downloads := ownTasks_retired _
  saves := ownTasks_retired _
  sends := ownTasks_retired _
  sent := (List.append_nil _).symm

/-- Where what was under way comes to nothing, nothing of an account is left once
it has been signed out: a phone that has been reset shows, saves and sends what
a blank one does. -/
theorem reset_isolates {p q : Phone} {written : Bool} {schedule : List Action}
    (closed : p.relay = false) (saved : ∀ data ∈ (p.reset written).messages, data = cleared)
    (ran : phone.checkedRun Quiet (p.reset written) schedule = some q) :
    ∃ q', phone.run (blank (p.reset written)) (schedule.filter own) = some q' ∧
      LooksLike p.sent q q' := by
  obtain ⟨q', ran', follows⟩ := (follows_reset closed saved).run ran
  exact ⟨q', ran', follows.looksLike⟩

/-! ### A message that is decrypted too late -/

def bob : Key := .user (utf16 "bob")

def fromBob : Sealed := { senderId := utf16 "bob", envelopeId := some (utf16 "e1") }

/-- alice is signed out while a message of bob's is being decrypted. -/
def signedOut : List Action :=
  [.signIn (utf16 "alice"), .start, .hydrated false true, .deliver fromBob false, .close]

/-- carol signs in, and the decryption ends. -/
def carolSignsIn (outcome : Option Opened) : List Action :=
  [.signIn (utf16 "carol"), .decrypted { work := fromBob, former := true } outcome]

/-- A decryption that fails leaves carol's first message to bob the only one. -/
theorem failed_decryption_is_not_shown :
    ∃ p q q', phone.Reachable p ∧ p.decrypts.length = 1 ∧
      phone.checkedRun Quiet (p.reset true)
        (carolSignsIn none ++ [.send bob (utf16 "hi") 1]) = some q ∧
      (getMessages q.store bob).length = 1 ∧ LooksLike p.sent q q' := by
  have observed : ((phone.run {} signedOut).map fun p => (p.relay, p.decrypts.length,
      (phone.checkedRun Quiet (p.reset true)
        (carolSignsIn none ++ [.send bob (utf16 "hi") 1])).map fun q =>
        (getMessages q.store bob).length)) = some (false, 1, some 1) := by decide +kernel
  obtain ⟨p, reachable, seen⟩ := Machine.reachable_of_observed observed rfl
  obtain ⟨closed, waits, onward⟩ : _ ∧ _ ∧ _ := by simpa only [Prod.mk.injEq] using seen
  obtain ⟨q, after, shown⟩ := Option.map_eq_some_iff.mp onward
  have saved : ∀ data ∈ (p.reset true).messages, data = cleared :=
    fun data found => (Option.some.inj found).symm
  obtain ⟨q', -, looks⟩ := reset_isolates closed saved after
  exact ⟨p, q, q', reachable, waits, after, shown, looks⟩

/-- A decryption that succeeds shows carol what bob wrote to alice. -/
theorem former_message_is_shown :
    ∃ p q, phone.Reachable p ∧ p.relay = false ∧
      phone.run (p.reset true) (carolSignsIn (some
        { text := utf16 "for alice", receivedAt := 1, verdict := none })) = some q ∧
      (getMessages q.store bob).map (·.text) = [.string (utf16 "for alice")] ∧
      ¬ Isolated (p.reset true) := by
  have observed : ((phone.run {} signedOut).map fun p => (p.relay,
      (phone.run (p.reset true) (carolSignsIn (some
        { text := utf16 "for alice", receivedAt := 1, verdict := none }))).map fun q =>
        (getMessages q.store bob).map (·.text))) =
      some (false, some [.string (utf16 "for alice")]) := by decide +kernel
  obtain ⟨p, ran, seen⟩ := Option.map_eq_some_iff.mp observed
  obtain ⟨closed, onward⟩ : _ ∧ _ := by simpa only [Prod.mk.injEq] using seen
  obtain ⟨q, after, shown⟩ := Option.map_eq_some_iff.mp onward
  refine ⟨p, q, Machine.reachable_of_run rfl _ ran, closed, after, shown, fun isolated => ?_⟩
  obtain ⟨q', ran', looks⟩ := isolated _ q after
  cases ran'
  rw [getMessages, looks.threads] at shown
  exact absurd shown.symm (List.cons_ne_nil _ _)

end Hwfa.ConversationSignOut
