import Hwfa.ConversationHydration
import Hwfa.StatusStore

/-!
When the one handler of inbound text returns, and what it leaves behind.

The parsers check that a body is JSON and nothing else.  A payload is then used
as if it had the shape it is declared to have: a group's thread is opened before
its roster is read, and under whatever the payload gives for an id; an
attachment's thread before its label is made; and a status is compared with what
other peers have sent.
-/

namespace Hwfa.ConversationHandling

open Hwfa.Json Hwfa.Maps Hwfa.Machines Hwfa.ConversationStore Hwfa.ConversationInbound
open Hwfa.ConversationPhone Hwfa.ConversationHydration Hwfa.StatusStore
open Hwfa.ConversationRouting hiding Action

/-! ### The app -/

/-- A phone and its status store. -/
structure App where
  phone : Phone := {}
  statuses : List StatusItem := []

inductive Event where
  | phone (action : Action) (now : Nat)
  | addOwn (text : Text) (at_ now : Nat) (random : Text)
  | prune (now : Nat)

/-- What `receive` makes of the status store that it hands to, `none` where that
throws. -/
def statusesAfter (x : App) (m : Inbound) (now : Nat) : Option (List StatusItem) :=
  match (x.phone.store.receive x.phone.accountId m).handoff with
  | some (.status fromUserId payload fromPhone) =>
    receiveStatus x.statuses fromUserId payload fromPhone now
  | _ => some x.statuses

/-- Where the status store throws, its items stay; they last as long as the process. -/
def App.step (x : App) : Event → Option App
  | .phone action now => (x.phone.step action).map fun phone =>
    match action with
    | .kill => { phone }
    | .decrypted task (some o) =>
      if x.phone.started then
        { phone, statuses := (statusesAfter x (task.work.inbound o) now).getD x.statuses }
      else { x with phone }
    | _ => { x with phone }
  | .addOwn text at_ now random =>
    some { x with statuses := (addOwn x.statuses text at_ now random).getD x.statuses }
  | .prune now => some { x with statuses := (prune x.statuses now).getD x.statuses }

def app : Machine App Event where
  start := fun x => x = {}
  step := App.step

/-! ### Total and atomic -/

def isString : Value → Bool
  | .string _ => true
  | _ => false

def isRoster : Value → Bool
  | .array members => members.all isString
  | _ => false

/-- No thread changes. -/
structure Unchanged (s s' : Store) : Prop where
  convs : s'.convs = s.convs
  listSnapshot : s'.listSnapshot = s.listSnapshot
  counter : s'.counter = s.counter

/-- `receive` returns, appends one message or none, and leaves only threads of
users and groups, with rosters of users. -/
structure Orderly (s : Store) (r : Reception) : Prop where
  returns : r.threw = false
  atomic : Unchanged s r.store ∨
    ∃ key message, message.mine = false ∧ Appends s r.store key message
  keys : ∀ key, (r.store.convs.lookup key).isSome → IsUser key
  rosters : ∀ key, ∀ group ∈ groupOf r.store key, isRoster group.members

/-- An inbound message is handled to the end. -/
def Handled (x : App) (m : Inbound) (now : Nat) : Prop :=
  Orderly x.phone.store (x.phone.store.receive x.phone.accountId m) ∧
    (statusesAfter x m now).isSome

/-- A text whose payload has what its format says: a group message the id and the
roster, an attachment a type and a name that a label can be made of. -/
structure WellFormed (text : Text) : Prop where
  group : isGroupBody text → (parseGroupBody text).truthy →
    isString ((parseGroupBody text).get "gid") ∧ isRoster ((parseGroupBody text).get "members")
  media : IsChat text → (parseMediaBody text).truthy →
    (mediaLabel ((parseMediaBody text).get "mime") ((parseMediaBody text).get "name")).isSome

/-- The phone number that a status is shown with. -/
def phoneOf (s : Store) (userId : Text) : Option Text :=
  (s.convs.lookup (.user userId)).bind (·.peerPhone)

/-- A message that can be handled: of a status, the times can be compared. -/
structure Shaped (x : App) (m : Inbound) (now : Nat) : Prop where
  formed : WellFormed m.text
  status : isStatusBody m.text → (parseStatusBody m.text).truthy →
    Sortable x.statuses (received m.fromUserId (parseStatusBody m.text)
      (phoneOf x.phone.store m.fromUserId)) now

instance (text : Text) : Decidable (WellFormed text) :=
  decidable_of_iff ((isGroupBody text → (parseGroupBody text).truthy →
      isString ((parseGroupBody text).get "gid") ∧ isRoster ((parseGroupBody text).get "members")) ∧
    (IsChat text → (parseMediaBody text).truthy →
      (mediaLabel ((parseMediaBody text).get "mime") ((parseMediaBody text).get "name")).isSome))
    ⟨fun h => ⟨h.1, h.2⟩, fun h => ⟨h.group, h.media⟩⟩

instance (x : App) (m : Inbound) (now : Nat) : Decidable (Shaped x m now) :=
  decidable_of_iff (WellFormed m.text ∧
    (isStatusBody m.text → (parseStatusBody m.text).truthy →
      Sortable x.statuses (received m.fromUserId (parseStatusBody m.text)
        (phoneOf x.phone.store m.fromUserId)) now))
    ⟨fun h => ⟨h.1, h.2⟩, fun h => ⟨h.formed, h.status⟩⟩

/-- What arrives is shaped, if it is handled at all. -/
def Expected (x : App) : Event → Prop
  | .phone (.decrypted task (some o)) now =>
    x.phone.started → Shaped x (task.work.inbound o) now
  | _ => True

instance (x : App) (event : Event) : Decidable (Expected x event) := by
  unfold Expected
  split <;> infer_instance

/-! ### The invariant -/

/-- What a reachable store is like, if what has arrived was shaped. -/
structure Sane (s : Store) : Prop where
  keys : ∀ key, (s.convs.lookup key).isSome → IsUser key
  peers : ∀ key, IsUser key → isString (s.ensure key).peerUserId
  rosters : ∀ key, ∀ group ∈ groupOf s key, isRoster group.members
  below : Below s s.counter

/-- The same of what is saved. -/
structure SaneState (data : PersistedState) : Prop where
  peers : ∀ c ∈ data.conversations, isString c.peerUserId
  below : BelowIn data.conversations data.counter

theorem isString_reread {v : Value} (string : isString v) : isString (reread v) := by
  cases v with
  | primitive p =>
    cases p with
    | string t => rfl
    | _ => cases string
  | _ => cases string

theorem isUser_keyOf_iff (s : Store) (v : Value) : IsUser (s.keyOf v) ↔ isString v := by
  constructor
  · rintro ⟨userId, same⟩
    cases v with
    | primitive p =>
      cases same
      rfl
    | array elements => cases same
    | object members => cases same
  · intro text
    cases v with
    | primitive p =>
      cases p with
      | string t => exact ⟨t, rfl⟩
      | _ => cases text
    | _ => cases text

/-- Who is left out of a roster has a string for an id. -/
theorem isRoster_roster {me : Option Text} {members stored : Value}
    (read : Store.roster me members = some stored) : isRoster stored ↔ isRoster members := by
  unfold Store.roster at read
  split at read
  · next signedIn =>
    obtain ⟨list, others, rfl⟩ := Option.map_eq_some_iff.mp read
    have named : isString (accountId me) := by
      cases me with
      | none => cases signedIn
      | some userId => rfl
    cases members with
    | array all =>
      cases others
      simp only [isRoster, List.all_eq_true, List.mem_filter, decide_eq_true_eq]
      constructor
      · intro strings member inside
        by_cases self : member = accountId me
        · rwa [self]
        · exact strings member ⟨inside, self⟩
      · exact fun strings member inside => strings member inside.1
    | _ => cases others
  · cases read
    rfl

theorem roster_isSome {me : Option Text} {members : Value} (strings : isRoster members) :
    (Store.roster me members).isSome := by
  unfold Store.roster
  split
  · cases members with
    | array all => rfl
    | _ => cases strings
  · rfl

/-! ### One message -/

/-- A patch that changes nothing of the first message of that id. -/
theorem lookup_patch_same {s : Store} {key : Key} {id : Text} {fields : ChatMessage → ChatMessage}
    (same : changeFirst (getMessages s key) id fields = getMessages s key) (other : Key) :
    (s.patch key id fields).convs.lookup other = s.convs.lookup other := by
  unfold Store.patch
  cases found : s.convs.lookup key with
  | none => rfl
  | some conv =>
    rw [getMessages, found, Option.elim_some] at same
    dsimp only
    cases first : conv.messages.findIdx? fun m => m.id = id with
    | none => rfl
    | some i =>
      rw [changeFirst, first, Option.elim_some] at same
      dsimp only
      rw [same]
      refine (lookup_set s key other conv).trans ?_
      split
      · next here => rw [here, found]
      · rfl

/-- The last message is the first of an id that is new. -/
theorem changeFirst_last {messages : List ChatMessage} {message : ChatMessage}
    (fields : ChatMessage → ChatMessage) (fresh : message.id ∉ messages.map (·.id)) :
    changeFirst (messages ++ [message]) message.id fields = messages ++ [fields message] := by
  have before : (messages.findIdx? fun m => m.id = message.id) = none := by
    rw [List.findIdx?_eq_none_iff]
    intro m member
    have apart : m.id ≠ message.id := fun same => fresh (same ▸ List.mem_map_of_mem member)
    simp [apart]
  have first : ((messages ++ [message]).findIdx? fun m => m.id = message.id) =
      some messages.length := by
    rw [List.findIdx?_append, before]
    simp
  rw [changeFirst, first, Option.elim_some, List.modify_eq_take_drop]
  simp

/-- An image is marked as loading when it is appended, and again. -/
theorem loadMedia_appends {s t : Store} {key : Key} {message : ChatMessage}
    (appends : Appends s t key message) (fresh : message.id ∉ idsAt s key)
    (state : message.mediaState = some .loading) :
    Appends s (t.loadMedia key message.id) key message := by
  have unchanged : { message with mediaState := some .loading } = message := by rw [← state]
  have same : changeFirst (getMessages t key) message.id
      (fun m => { m with mediaState := some .loading }) = getMessages t key := by
    rw [appends.messages, changeFirst_last _ fresh, unchanged]
  have effect : Effect IsUser none t (t.loadMedia key message.id) := patch_effect _ fun _ => rfl
  have kept (other : Key) : (t.loadMedia key message.id).convs.lookup other =
      t.convs.lookup other := lookup_patch_same same other
  exact
    { messages := by rw [getMessages, kept, ← appends.messages, getMessages]
      unread := by rw [unreadOf, kept, ← appends.unread, unreadOf]
      others := fun other apart => (kept other).trans (appends.others other apart)
      there := by
        rw [kept]
        exact appends.there
      peer := by rw [Store.ensure, kept, ← appends.peer, Store.ensure]
      counter := by
        rw [← appends.counter]
        exact effect.counter }

/-- What is for no thread leaves every thread as it is. -/
theorem receive_aside (s : Store) (me : Option Text) {m : Inbound}
    (ungrouped : ¬ (isGroupBody m.text ∧ (parseGroupBody m.text).truthy))
    (apart : ¬ IsChat m.text) :
    Unchanged s (s.receive me m).store ∧ (s.receive me m).threw = false := by
  unfold Store.receive
  dsimp only
  split
  · split <;> exact ⟨⟨rfl, rfl, rfl⟩, rfl⟩
  · next untyped =>
    split
    · exact ⟨⟨rfl, rfl, rfl⟩, rfl⟩
    · next uncalled =>
      split
      · next grouped =>
        rw [if_neg fun payload => ungrouped ⟨grouped, payload⟩]
        exact ⟨⟨rfl, rfl, rfl⟩, rfl⟩
      · next unmarked =>
        split
        · exact ⟨⟨rfl, rfl, rfl⟩, rfl⟩
        · next unstated => exact absurd ⟨untyped, uncalled, unmarked, unstated⟩ apart

section

variable {s : Store} (sane : Sane s) {me : Option Text} {m : Inbound} {r : Reception}

include sane

/-- A message is appended to the thread of a user or a group. -/
theorem orderly_of_appends {key : Key} {message : ChatMessage}
    (appends : Appends s r.store key message) (theirs : message.mine = false) (user : IsUser key)
    (returns : r.threw = false) (rosters : ∀ key, ∀ group ∈ groupOf r.store key,
      isRoster group.members) : Orderly s r where
  returns := returns
  atomic := .inr ⟨key, message, theirs, appends⟩
  keys other there := by
    by_cases same : other = key
    · rwa [same]
    · rw [appends.others other same] at there
      exact sane.keys other there
  rosters := rosters

theorem orderly_receiveGroup_iff (payload : Value) :
    Orderly s (s.receiveGroup me m payload) ↔
      isString (payload.get "gid") ∧ isRoster (payload.get "members") := by
  constructor
  · intro orderly
    cases read : Store.roster me (payload.get "members") with
    | none =>
      have threw := (receiveGroup_threw (s := s) (m := m) read).1
      rw [orderly.returns] at threw
      cases threw
    | some members =>
      obtain ⟨-, appends⟩ := receiveGroup_appends (s := s) (m := m) read
      have user := orderly.keys _ appends.there
      have roster : groupOf (s.receiveGroup me m payload).store (s.keyOf (payload.get "gid")) =
          some ⟨payload.get "name", members⟩ := by
        rw [groupOf_receiveGroup, read]
        exact if_pos rfl
      exact ⟨(isUser_keyOf_iff s _).mp user, (isRoster_roster read).mp (orderly.rosters _ _ roster)⟩
  · rintro ⟨gid, strings⟩
    have can : (Store.roster me (payload.get "members")).isSome := roster_isSome strings
    obtain ⟨members, read⟩ := Option.isSome_iff_exists.mp can
    obtain ⟨returns, appends⟩ := receiveGroup_appends (s := s) (m := m) read
    refine orderly_of_appends sane appends rfl ((isUser_keyOf_iff s _).mpr gid) returns ?_
    intro key group found
    rw [groupOf_receiveGroup, read] at found
    dsimp only at found
    split at found
    · cases found
      exact (isRoster_roster read).mpr strings
    · exact sane.rosters key group found

theorem orderly_receiveChat_iff :
    Orderly s (s.receiveChat m) ↔ ((parseMediaBody m.text).truthy →
      (mediaLabel ((parseMediaBody m.text).get "mime")
        ((parseMediaBody m.text).get "name")).isSome) := by
  have user : IsUser (.user m.fromUserId) := ⟨m.fromUserId, rfl⟩
  have rosters : ∀ key, ∀ group ∈ groupOf (s.receiveChat m).store key, isRoster group.members := by
    rw [groupOf_receiveChat]
    exact sane.rosters
  constructor
  · intro orderly media
    rw [Option.isSome_iff_ne_none]
    intro unlabelled
    have threw := (receiveChat_threw (s := s) media unlabelled).1
    rw [orderly.returns] at threw
    cases threw
  · intro labelled
    by_cases media : (parseMediaBody m.text).truthy
    · obtain ⟨label, labelled⟩ := Option.isSome_iff_exists.mp (labelled media)
      obtain ⟨returns, t, appends, became⟩ := receiveChat_media media labelled
      have appended : Appends s (s.receiveChat m).store (.user m.fromUserId)
          (mediaMessage s m label) := by
        rcases became with same | ⟨state, same⟩
        · rwa [same]
        · rw [same]
          exact loadMedia_appends appends (sane.below.fresh _ (Nat.le_refl _)) state
      exact orderly_of_appends sane appended rfl user returns rosters
    · obtain ⟨returns, -, appends⟩ := receiveChat_plain (s := s) media
      exact orderly_of_appends sane appends rfl user returns rosters

/-- Whether the conversation store handles a message depends on its text. -/
theorem orderly_iff : Orderly s (s.receive me m) ↔ WellFormed m.text := by
  by_cases group : isGroupBody m.text ∧ (parseGroupBody m.text).truthy
  · obtain ⟨grouped, payload⟩ := group
    rw [receive_group s me grouped payload, orderly_receiveGroup_iff sane]
    exact ⟨fun shaped => ⟨fun _ _ => shaped, fun chat => absurd grouped chat.2.2.1⟩,
      fun formed => formed.group grouped payload⟩
  · by_cases chat : IsChat m.text
    · rw [(receive_taken s me m).chat_eq chat, orderly_receiveChat_iff sane]
      exact ⟨fun labelled => ⟨fun grouped => absurd grouped chat.2.2.1, fun _ => labelled⟩,
        fun formed => formed.media chat⟩
    · obtain ⟨unchanged, returns⟩ := receive_aside s me group chat
      have formed : WellFormed m.text :=
        ⟨fun grouped payload => absurd ⟨grouped, payload⟩ group, fun also => absurd also chat⟩
      refine ⟨fun _ => formed, fun _ => ⟨returns, .inl unchanged, ?_, ?_⟩⟩
      · rw [unchanged.convs]
        exact sane.keys
      · rw [groupOf_receive_other s me group]
        exact sane.rosters

end

/-! ### The status store -/

theorem status_is_no_other {text : Text} (status : isStatusBody text) :
    isTypingBody text = false ∧ isCallBody text = false ∧ isGroupBody text = false :=
  ⟨not_marked status (by decide +kernel) (by decide +kernel),
    not_marked status (by decide +kernel) (by decide +kernel),
    not_marked status (by decide +kernel) (by decide +kernel)⟩

theorem statusesAfter_status {x : App} {m : Inbound} (now : Nat) (status : isStatusBody m.text)
    (payload : (parseStatusBody m.text).truthy) :
    statusesAfter x m now = receiveStatus x.statuses m.fromUserId (parseStatusBody m.text)
      (phoneOf x.phone.store m.fromUserId) now := by
  obtain ⟨untyped, uncalled, ungrouped⟩ := status_is_no_other status
  simp [statusesAfter, Store.receive, untyped, uncalled, ungrouped, status, payload, phoneOf]

theorem receiveGroup_handoff (s : Store) (me : Option Text) (m : Inbound) (payload : Value) :
    (s.receiveGroup me m payload).handoff = none := by
  unfold Store.receiveGroup
  dsimp only
  split <;> rfl

theorem receiveChat_handoff (s : Store) (m : Inbound) (fromUserId : Text) (payload : Value)
    (fromPhone : Option Text) :
    (s.receiveChat m).handoff ≠ some (.status fromUserId payload fromPhone) := by
  unfold Store.receiveChat
  dsimp only
  split
  · split
    · simp
    · split <;> simp
  · simp

/-- Only a status is handed to the status store. -/
theorem status_of_handoff {s : Store} {me : Option Text} {m : Inbound} {fromUserId : Text}
    {payload : Value} {fromPhone : Option Text}
    (handed : (s.receive me m).handoff = some (.status fromUserId payload fromPhone)) :
    isStatusBody m.text ∧ (parseStatusBody m.text).truthy := by
  unfold Store.receive at handed
  dsimp only at handed
  split at handed
  · split at handed <;> cases handed
  · split at handed
    · dsimp only at handed
      split at handed <;> cases handed
    · split at handed
      · split at handed
        · rw [receiveGroup_handoff] at handed
          cases handed
        · cases handed
      · split at handed
        · next status =>
          obtain ⟨truthy, -⟩ := Option.ite_none_right_eq_some.mp handed
          exact ⟨status, truthy⟩
        · exact (receiveChat_handoff s m _ _ _ handed).elim

theorem statusesAfter_other {x : App} {m : Inbound} (now : Nat)
    (other : ¬ (isStatusBody m.text ∧ (parseStatusBody m.text).truthy)) :
    statusesAfter x m now = some x.statuses := by
  unfold statusesAfter
  split
  · next handed => exact absurd (status_of_handoff handed) other
  · rfl

theorem statusesAfter_isSome_iff {x : App} {m : Inbound} {now : Nat}
    (comparable : Comparable x.statuses) :
    (statusesAfter x m now).isSome ↔ (isStatusBody m.text → (parseStatusBody m.text).truthy →
      Sortable x.statuses (received m.fromUserId (parseStatusBody m.text)
        (phoneOf x.phone.store m.fromUserId)) now) := by
  by_cases status : isStatusBody m.text ∧ (parseStatusBody m.text).truthy
  · obtain ⟨status, payload⟩ := status
    rw [statusesAfter_status now status payload, receiveStatus, upsert_isSome_iff comparable]
    exact ⟨fun sortable _ _ => sortable, fun sortable => sortable status payload⟩
  · rw [statusesAfter_other now status]
    exact ⟨fun _ marked payload => absurd ⟨marked, payload⟩ status, fun _ => rfl⟩

theorem statusesAfter_comparable {x : App} {m : Inbound} {now : Nat} {items : List StatusItem}
    (comparable : Comparable x.statuses) (taken : statusesAfter x m now = some items) :
    Comparable items := by
  by_cases status : isStatusBody m.text ∧ (parseStatusBody m.text).truthy
  · rw [statusesAfter_status now status.1 status.2] at taken
    exact upsert_comparable taken
  · rw [statusesAfter_other now status] at taken
    cases taken
    exact comparable

theorem handled_iff {x : App} {m : Inbound} {now : Nat} (sane : Sane x.phone.store)
    (comparable : Comparable x.statuses) : Handled x m now ↔ Shaped x m now := by
  rw [Handled, orderly_iff sane, statusesAfter_isSome_iff comparable]
  exact ⟨fun both => ⟨both.1, both.2⟩, fun shaped => ⟨shaped.formed, shaped.status⟩⟩

/-! ### Whole runs -/

theorem Sane.empty {s : Store} (empty : s.convs = ∅) : Sane s where
  keys key there := by
    rw [empty] at there
    cases there
  peers key user := by
    obtain ⟨userId, rfl⟩ := user
    rw [Store.ensure, empty]
    rfl
  rosters key group found := by
    rw [groupOf, empty] at found
    cases found
  below := .empty empty _

/-- Every operation but those on what arrives and on what is saved opens threads of
users only. -/
theorem Sane.effect {s s' : Store} {made : Option Key} (sane : Sane s)
    (effect : Effect IsUser made s s')
    (rosters : ∀ key, ∀ group ∈ groupOf s' key, isRoster group.members) : Sane s' where
  keys key there := (effect.opened key there).elim (sane.keys key) id
  peers key user := by
    rw [effect.peers]
    exact sane.peers key user
  rosters := rosters
  below := sane.below.effect effect

theorem Sane.received {s : Store} (sane : Sane s) {me : Option Text} {m : Inbound}
    (orderly : Orderly s (s.receive me m)) : Sane (s.receive me m).store where
  keys := orderly.keys
  peers key user := by
    rw [(receive_effect s me m).peers]
    exact sane.peers key user
  rosters := orderly.rosters
  below := sane.below.effect (receive_effect s me m)

theorem Sane.persisted {s : Store} (sane : Sane s) : SaneState (schedulePersist s) where
  peers _ member := by
    obtain ⟨c, inside, rfl⟩ := List.mem_map.mp member
    obtain ⟨key, found⟩ := FinMap.mem_values.mp inside
    have peer := sane.peers key (sane.keys key (by rw [found]; rfl))
    rw [ensure_of_lookup found] at peer
    exact isString_reread peer
  below := sane.below.persisted

/-- A saved conversation comes back in a thread that has its peer, or had one. -/
theorem lookup_hydrateOne (s : Store) (c : Conversation) :
    ∃ conv, (conv.peerUserId = c.peerUserId ∨
        conv.peerUserId = (s.ensure (s.keyOf c.peerUserId)).peerUserId) ∧
      ∀ key, (s.hydrateOne c).convs.lookup key =
        if key = s.keyOf c.peerUserId then some conv else s.convs.lookup key := by
  unfold Store.hydrateOne
  dsimp only
  split
  · next existing found =>
    refine ⟨_, .inr ?_, fun key => lookup_set _ _ key _⟩
    rw [ensure_of_lookup found]
  · refine ⟨_, .inl ?_, fun key => lookup_set _ _ key _⟩
    rfl

/-- Conversations of users come back in threads of users. -/
theorem users_hydrate {s : Store} {data : PersistedState} (sane : Sane s)
    (strings : ∀ c ∈ data.conversations, isString c.peerUserId) :
    (∀ key, ((s.hydrate data).convs.lookup key).isSome → IsUser key) ∧
      ∀ key, IsUser key → isString ((s.hydrate data).ensure key).peerUserId := by
  refine hydrate_invariant (fun t => (∀ key, (t.convs.lookup key).isSome → IsUser key) ∧
    ∀ key, IsUser key → isString (t.ensure key).peerUserId) ⟨sane.keys, sane.peers⟩ ?_
    fun _ users => users
  rintro t c inside ⟨keys, peers⟩
  have user : IsUser (t.keyOf c.peerUserId) := (isUser_keyOf_iff t _).mpr (strings c inside)
  obtain ⟨conv, peer, looked⟩ := lookup_hydrateOne t c
  constructor
  · intro key there
    rw [looked] at there
    split at there
    · next same => rwa [same]
    · exact keys key there
  · intro key known
    rw [Store.ensure, looked]
    split
    · rw [Option.getD_some]
      rcases peer with same | same
      · rw [same]
        exact strings c inside
      · rw [same]
        exact peers _ user
    · exact peers key known

theorem Sane.hydrate {s : Store} {data : PersistedState} (sane : Sane s) (saved : SaneState data) :
    Sane (s.hydrate data) where
  keys := (users_hydrate sane saved.peers).1
  peers := (users_hydrate sane saved.peers).2
  rosters := by
    rw [groupOf_hydrate]
    exact sane.rosters
  below := sane.below.hydrate saved.below

theorem groupOf_mediaUploaded (p : Phone) (task : Pending Upload) (reply : Option MediaReference) :
    groupOf (p.mediaUploaded task reply).store = groupOf p.store := by
  unfold Phone.mediaUploaded
  dsimp only
  split
  · exact (groupOf_patch ..).trans (groupOf_uploaded ..)
  · rw [Phone.sendTexts_store]
    exact groupOf_uploaded ..

/-- What a user does gives no group another roster, but for a new group, whose
members are users. -/
theorem step_groups {p p' : Phone} {action : Action} (moved : p.step action = some p')
    (apart : ¬ touchesDisk action) (unheard : ∀ task outcome, action ≠ .decrypted task outcome)
    (key : Key) : groupOf p'.store key = groupOf p.store key ∨
      ∃ (name : Text) (members : List Text), groupOf p'.store key = some ⟨.string name, .array (members.map .string)⟩ := by
  cases action with
  | start | save | hydrated | kill | reset => exact (apart trivial).elim
  | decrypted task outcome => exact (unheard task outcome rfl).elim
  | createGroup name members now random =>
    cases moved
    have created := groupOf_set p.store (.user (newGroupId now random)) key
      { p.store.ensure (.user (newGroupId now random)) with
        group := some ⟨.string name, .array (members.map .string)⟩, lastAt := now }
    by_cases same : key = .user (newGroupId now random)
    · exact .inr ⟨name, members, created.trans (if_pos same)⟩
    · exact .inl (created.trans (if_neg same))
  | transmit task =>
    obtain ⟨-, same⟩ := Option.ite_none_right_eq_some.mp moved
    cases same
    rw [Phone.handOver_store]
    exact .inl rfl
  | sendEnded task =>
    obtain ⟨-, same⟩ := Option.ite_none_right_eq_some.mp moved
    cases same
    exact .inl rfl
  | ensurePeer other phone =>
    obtain ⟨-, same⟩ := Option.ite_none_right_eq_some.mp moved
    cases same
    exact .inl (congrFun (groupOf_ensurePeer ..) key)
  | send other text now =>
    obtain ⟨-, same⟩ := Option.ite_none_right_eq_some.mp moved
    cases same
    rw [Phone.sendTexts_store]
    exact .inl (congrFun (groupOf_send ..) key)
  | sendMedia other media now =>
    obtain ⟨-, same⟩ := Option.ite_none_right_eq_some.mp moved
    cases same
    exact .inl (congrFun (groupOf_sendMedia ..) key)
  | uploaded task reply =>
    obtain ⟨-, same⟩ := Option.ite_none_right_eq_some.mp moved
    cases same
    exact .inl (congrFun (groupOf_mediaUploaded { p with uploads := p.uploads.erase task } ..) key)
  | downloaded task reply =>
    obtain ⟨-, same⟩ := Option.ite_none_right_eq_some.mp moved
    cases same
    exact .inl (congrFun (groupOf_loaded ..) key)
  | mediaSaved task written =>
    obtain ⟨-, same⟩ := Option.ite_none_right_eq_some.mp moved
    cases same
    cases written with
    | true => exact .inl (congrFun (groupOf_patch ..) key)
    | false => exact .inl rfl
  | sendTyping other typing =>
    cases moved
    rw [Phone.sendTexts_store]
    exact .inl rfl
  | markRead other =>
    cases moved
    rw [Phone.handOver_store]
    exact .inl (congrFun (groupOf_markRead ..) key)
  | setPeerIdentity other identity =>
    cases moved
    exact .inl (congrFun (groupOf_setPeerIdentity ..) key)
  | loadMedia other id =>
    cases moved
    exact .inl (congrFun (groupOf_patch ..) key)
  | applyStatus ref status =>
    cases moved
    exact .inl (congrFun (groupOf_applyStatus ..) key)
  | toggleStar other id | dismissScamWarning other id =>
    cases moved
    exact .inl (congrFun (groupOf_editMessages ..) key)
  | signIn | connect | disconnect | close | deliver | saveMedia =>
    cases moved
    exact .inl rfl

/-- What holds of the app if what has arrived was shaped. -/
structure Sound (x : App) : Prop where
  sane : Sane x.phone.store
  saved : ∀ data ∈ x.phone.messages, SaneState data
  waiting : ∀ task ∈ x.phone.loading, ∀ data ∈ task.work, SaneState data
  comparable : Comparable x.statuses

theorem opens_of_unheard {action : Action}
    (unheard : ∀ task outcome, action ≠ .decrypted task outcome) : opens action = IsUser := by
  cases action with
  | decrypted task outcome => exact (unheard task outcome rfl).elim
  | _ => rfl

namespace Sound

variable {x : App} (sound : Sound x)

include sound

/-- A step that neither receives anything nor touches what is saved. -/
theorem unheard {action : Action} {phone : Phone} (stepped : x.phone.step action = some phone)
    (apart : ¬ touchesDisk action) (unheard : ∀ task outcome, action ≠ .decrypted task outcome) :
    Sound { x with phone } := by
  have effect := step_effect stepped (mt touchesDisk_of_replaces apart)
  rw [opens_of_unheard unheard] at effect
  have disk := step_sameDisk stepped apart
  refine ⟨sound.sane.effect effect ?_, ?_, ?_, sound.comparable⟩
  · intro key group found
    rcases step_groups stepped apart unheard key with same | ⟨name, members, created⟩
    · exact sound.sane.rosters key group (same ▸ found)
    · cases created.symm.trans found
      simp [isRoster, isString]
  · rw [disk.messages]
    exact sound.saved
  · rw [disk.loading]
    exact sound.waiting

/-- A message that arrives, if the store listens. -/
theorem heard {task : Pending Sealed} {o : Opened} {now : Nat} {phone : Phone}
    (expected : Expected x (.phone (.decrypted task (some o)) now))
    (stepped : x.phone.step (.decrypted task (some o)) = some phone) :
    Sound (if x.phone.started then
        { phone, statuses := (statusesAfter x (task.work.inbound o) now).getD x.statuses }
      else { x with phone }) := by
  have disk := step_sameDisk stepped id
  have saved : ∀ data ∈ phone.messages, SaneState data := by
    rw [disk.messages]
    exact sound.saved
  have waiting : ∀ task ∈ phone.loading, ∀ data ∈ task.work, SaneState data := by
    rw [disk.loading]
    exact sound.waiting
  have store : phone.store = if x.phone.started then
      (x.phone.store.receive x.phone.accountId (task.work.inbound o)).store else x.phone.store := by
    obtain ⟨-, same⟩ := Option.ite_none_right_eq_some.mp stepped
    cases same
    exact Phone.received_store { x.phone with decrypts := x.phone.decrypts.erase task } _ _
  split
  · next listens =>
    rw [if_pos listens] at store
    obtain ⟨orderly, -⟩ := (handled_iff sound.sane sound.comparable).mpr (expected listens)
    refine ⟨?_, saved, waiting, ?_⟩
    · rw [store]
      exact sound.sane.received orderly
    · cases taken : statusesAfter x (task.work.inbound o) now with
      | none => exact sound.comparable
      | some items => exact statusesAfter_comparable sound.comparable taken
  · next deaf =>
    rw [if_neg deaf] at store
    refine ⟨?_, saved, waiting, sound.comparable⟩
    rw [store]
    exact sound.sane

theorem hydrated {former read : Bool} {phone : Phone}
    (stepped : x.phone.step (.hydrated former read) = some phone) : Sound { x with phone } := by
  obtain ⟨task, waits, -, rfl⟩ := step_hydrated stepped
  refine ⟨?_, sound.saved, fun task member => (by cases member), sound.comparable⟩
  cases read with
  | false => exact sound.sane
  | true =>
    cases found : task.work with
    | none => exact sound.sane
    | some data => exact sound.sane.hydrate (sound.waiting task waits data found)

end Sound

theorem cleared_sane : SaneState cleared where
  peers c member := by cases member
  below c member := by cases member

theorem step_sound {x x' : App} {event : Event} (sound : Sound x) (expected : Expected x event)
    (moved : x.step event = some x') : Sound x' := by
  cases event with
  | addOwn text at_ now random =>
    cases moved
    refine ⟨sound.sane, sound.saved, sound.waiting, ?_⟩
    cases taken : addOwn x.statuses text at_ now random with
    | none => exact sound.comparable
    | some items => exact upsert_comparable taken
  | prune now =>
    cases moved
    refine ⟨sound.sane, sound.saved, sound.waiting, ?_⟩
    cases pruned : prune x.statuses now with
    | none => exact sound.comparable
    | some items => exact prune_comparable pruned
  | phone action now =>
    obtain ⟨phone, stepped, rfl⟩ := Option.map_eq_some_iff.mp moved
    cases action with
    | decrypted task outcome =>
      cases outcome with
      | none =>
        obtain ⟨-, same⟩ := Option.ite_none_right_eq_some.mp stepped
        cases same
        exact ⟨sound.sane, sound.saved, sound.waiting, sound.comparable⟩
      | some o => exact sound.heard expected stepped
    | hydrated former read => exact sound.hydrated stepped
    | start =>
      obtain ⟨-, same⟩ := Option.ite_none_left_eq_some.mp stepped
      cases same
      refine ⟨sound.sane, sound.saved, fun task member => ?_, sound.comparable⟩
      cases member
      exact sound.saved
    | save written =>
      cases stepped
      cases written with
      | false => exact ⟨sound.sane, sound.saved, sound.waiting, sound.comparable⟩
      | true =>
        refine ⟨sound.sane, fun data member => ?_, sound.waiting, sound.comparable⟩
        cases member
        exact sound.sane.persisted
    | kill =>
      cases stepped
      exact
        { sane := .empty rfl
          saved := sound.saved
          waiting := fun task member => by cases member
          comparable := fun s member => by cases member }
    | reset written =>
      cases stepped
      refine ⟨.empty rfl, fun data member => ?_, fun task member => ?_, sound.comparable⟩
      · cases written with
        | true =>
          cases member
          exact cleared_sane
        | false => exact sound.saved data member
      · obtain ⟨earlier, waits, rfl⟩ := Option.map_eq_some_iff.mp member
        exact sound.waiting earlier waits
    | _ => exact sound.unheard stepped id fun task outcome same => by cases same

theorem sound_of_reached {x : App} (reached : app.Reached Expected x) : Sound x := by
  refine reached.invariant Sound ?_ fun x event x' sound expected moved =>
    step_sound sound expected moved
  rintro x rfl
  exact
    { sane := .empty rfl
      saved := fun data member => by cases member
      waiting := fun task member => by cases member
      comparable := fun s member => by cases member }

/-- In every run in which what has arrived was shaped, every thread is a user's or
a group's and every roster one of users, and the next message is handled to the
end, and leaves it so, exactly if it is shaped as well. -/
theorem inbound_is_handled {x : App} (reached : app.Reached Expected x) :
    (∀ key, (x.phone.store.convs.lookup key).isSome → IsUser key) ∧
      (∀ key, ∀ group ∈ groupOf x.phone.store key, isRoster group.members) ∧
      ∀ m now, Handled x m now ↔ Shaped x m now := by
  have sound := sound_of_reached reached
  exact ⟨sound.sane.keys, sound.sane.rosters, fun m now => handled_iff sound.sane sound.comparable⟩

/-! ### A payload that is only a number -/

/-- alice signs in, and the app listens. -/
def listening : List Event :=
  [.phone (.signIn (utf16 "alice")) 0, .phone .start 0, .phone (.hydrated false true) 0]

def fromBob (text : Text) : Inbound where
  fromUserId := utf16 "bob"
  text := text
  receivedAt := 1
  envelopeId := none
  verdict := none

/-- A message of a group of alice and bob. -/
def groupBody : Text :=
  utf16 "hwfa-group:\x7b\"gid\":\"g\",\"name\":\"n\",\"members\":[\"alice\",\"bob\"],\"text\":\"hi\"\x7d"

/-- bob's message is decrypted. -/
def heardFromBob (text : Text) : List Event :=
  let envelope : Sealed := { senderId := utf16 "bob", envelopeId := none }
  [.phone (.deliver envelope false) 0,
    .phone (.decrypted { work := envelope }
      (some { text, receivedAt := 1, verdict := none })) 0]

/-- The second message of a group is handled like the first one. -/
theorem group_message_is_handled :
    ∃ x, app.Reached Expected x ∧ unreadOf x.phone.store (.user (utf16 "g")) = 1 ∧
      Handled x (fromBob groupBody) 1 := by
  have observed : ((app.checkedRun Expected {} (listening ++ heardFromBob groupBody)).map fun x =>
      (unreadOf x.phone.store (.user (utf16 "g")), decide (Shaped x (fromBob groupBody) 1))) =
      some (1, true) := by decide +kernel
  obtain ⟨x, reached, seen⟩ := Machine.reached_of_observed observed (.start rfl)
  obtain ⟨unread, shaped⟩ : _ ∧ _ := by simpa only [Prod.mk.injEq] using seen
  exact ⟨x, reached, unread, ((inbound_is_handled reached).2.2 _ 1).mpr (of_decide_eq_true shaped)⟩

/-- A group message without a payload opens a thread `undefined`, and throws. -/
theorem bare_group_message_throws :
    ∃ x, app.Reachable x ∧
      (x.phone.store.receive x.phone.accountId (fromBob (utf16 "hwfa-group:1"))).threw = true ∧
      ((x.phone.store.receive x.phone.accountId
        (fromBob (utf16 "hwfa-group:1"))).store.convs.lookup (.primitive .undefined)).isSome ∧
      ¬ Handled x (fromBob (utf16 "hwfa-group:1")) 1 := by
  have observed : ((app.run {} listening).map fun x =>
      ((x.phone.store.receive x.phone.accountId (fromBob (utf16 "hwfa-group:1"))).threw,
        ((x.phone.store.receive x.phone.accountId
          (fromBob (utf16 "hwfa-group:1"))).store.convs.lookup (.primitive .undefined)).isSome)) =
      some (true, true) := by decide +kernel
  obtain ⟨x, reachable, seen⟩ := Machine.reachable_of_observed observed rfl
  obtain ⟨threw, opened⟩ : _ ∧ _ := by simpa only [Prod.mk.injEq] using seen
  refine ⟨x, reachable, threw, opened, fun handled => ?_⟩
  rw [handled.1.returns] at threw
  cases threw

end Hwfa.ConversationHandling
