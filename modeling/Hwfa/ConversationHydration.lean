import Hwfa.ConversationPhone

/-!
What the saved conversations and the new ones come to when the load completes.

Until then the counter that numbers messages is at zero, and a message that
arrives or is sent meanwhile gets an id that a saved one may have.  `hydrate`
puts the saved messages before those that are there and raises the counter, so
nothing is lost and whatever is numbered later is new; but two messages of one
thread keep one id.  Where that does not happen, ids stay distinct for good.
-/

namespace Hwfa.ConversationHydration

open Hwfa.Json Hwfa.Maps Hwfa.Machines Hwfa.ConversationStore Hwfa.ConversationInbound
open Hwfa.ConversationPhone

/-! ### Sessions -/

/-- The saved conversations with the keys they are restored under, when so many
arrays and objects have been parsed before. -/
def placed : Nat → List Conversation → List (Key × Conversation)
  | _, [] => []
  | n, c :: rest => (({ references := n } : Store).keyOf c.peerUserId, c) :: placed (n + 1) rest

/-- The messages that were restored into a thread. -/
def restoredIn (restored : List (Key × Conversation)) (key : Key) : List ChatMessage :=
  (restored.find? fun e => e.1 = key).elim [] (·.2.messages)

/-- A phone, with what was restored since the store was last empty and what has
been made since. -/
structure Session where
  phone : Phone := {}
  restored : List (Key × Conversation) := []
  made : List (Key × Text) := []

/-- The ids of the messages that were made in a thread. -/
def Session.madeIn (x : Session) (key : Key) : List Text :=
  (x.made.filter fun e => e.1 = key).map (·.2)

/-- What is restored when a load completes. -/
def loaded (p : Phone) : List (Key × Conversation) :=
  match p.loading with
  | some { work := some data, former := _ } => placed p.store.references data.conversations
  | _ => []

def Session.step (x : Session) (action : Action) : Option Session :=
  (x.phone.step action).map fun phone =>
    match action with
    | .hydrated _ true => { x with phone, restored := loaded x.phone }
    | .kill | .reset _ => { phone }
    | _ => { x with
        phone
        made := x.made ++
          (ConversationPhone.made x.phone action).toList.map fun key =>
            (key, messageId x.phone.store.counter) }

def session : Machine Session Action where
  start := fun x => x = {}
  step := Session.step

/-- A load does not complete with two conversations for one thread, or with a
message whose id a message of the thread has already. -/
def Unclashing (x : Session) : Action → Prop
  | .hydrated _ true => ((loaded x.phone).map (·.1)).Nodup ∧
      ∀ e ∈ loaded x.phone, ∀ m ∈ e.2.messages, m.id ∉ idsAt x.phone.store e.1
  | _ => True

instance (x : Session) (action : Action) : Decidable (Unclashing x action) := by
  unfold Unclashing
  split <;> infer_instance

/-- At most one message is changed. -/
def ChangesAtMostOne (s s' : Store) : Prop :=
  ∃ (key : Key) (i : Nat), ∀ (other : Key) (j : Nat), other = key ∧ j = i ∨
    (getMessages s' other)[j]? = (getMessages s other)[j]?

/-- Every thread has the messages that were restored, then those made since, each
once; what is made later is new, and what is changed by id is one message. -/
structure Merged (x : Session) : Prop where
  exactly : ∀ key, idsAt x.phone.store key =
    (restoredIn x.restored key).map (·.id) ++ x.madeIn key
  once : ∀ key, (idsAt x.phone.store key).Nodup
  fresh : ∀ key n, x.phone.store.counter ≤ n → messageId n ∉ idsAt x.phone.store key
  patch : ∀ key id fields, ChangesAtMostOne x.phone.store (x.phone.store.patch key id fields)
  toggleStar : ∀ key id, ChangesAtMostOne x.phone.store (x.phone.store.toggleStar key id)
  dismissScamWarning : ∀ key id,
    ChangesAtMostOne x.phone.store (x.phone.store.dismissScamWarning key id)

/-! ### What a load adds -/

theorem getMessages_hydrateOne (s : Store) (c : Conversation) (key : Key) :
    getMessages (s.hydrateOne c) key =
      if key = s.keyOf c.peerUserId then c.messages ++ getMessages s key else getMessages s key := by
  unfold Store.hydrateOne
  dsimp only
  split
  · next existing found =>
    have there : getMessages s (s.keyOf c.peerUserId) = existing.messages := by
      rw [getMessages, show s.convs.lookup _ = some existing from found, Option.elim_some]
    rw [getMessages_set]
    split
    · next same => rw [same, there]
    · rfl
  · next absent =>
    have there : getMessages s (s.keyOf c.peerUserId) = [] := by
      rw [getMessages, show s.convs.lookup _ = none from absent, Option.elim_none]
    rw [getMessages_set]
    split
    · next same => rw [same, there, List.append_nil]
    · rfl

theorem hydrateOne_references (s : Store) (c : Conversation) :
    (s.hydrateOne c).references = s.references + 1 := by
  unfold Store.hydrateOne
  dsimp only
  split <;> rfl

theorem restoredIn_cons (k key : Key) (c : Conversation) (rest : List (Key × Conversation)) :
    restoredIn ((k, c) :: rest) key = if k = key then c.messages else restoredIn rest key := by
  unfold restoredIn
  rw [List.find?_cons]
  by_cases same : k = key <;> simp [same]

theorem restoredIn_absent {restored : List (Key × Conversation)} {key : Key}
    (absent : key ∉ restored.map (·.1)) : restoredIn restored key = [] := by
  unfold restoredIn
  rw [List.find?_eq_none.mpr]
  · rfl
  · intro e member same
    exact absent (List.mem_map.mpr ⟨e, member, of_decide_eq_true same⟩)

/-- Saved conversations of different threads are put before what is there. -/
theorem getMessages_hydrate {s : Store} {data : PersistedState}
    (apart : ((placed s.references data.conversations).map (·.1)).Nodup) (key : Key) :
    getMessages (s.hydrate data) key =
      restoredIn (placed s.references data.conversations) key ++ getMessages s key := by
  suffices general : ∀ (list : List Conversation) (t : Store),
      ((placed t.references list).map (·.1)).Nodup →
      getMessages (list.foldl Store.hydrateOne t) key =
        restoredIn (placed t.references list) key ++ getMessages t key from
    general data.conversations { s with counter := max s.counter data.counter } apart
  clear apart
  intro list
  induction list with
  | nil => exact fun t _ => rfl
  | cons c rest ih =>
    intro t apart
    obtain ⟨absent, apart⟩ := List.nodup_cons.mp apart
    have next := ih (t.hydrateOne c) (by rwa [hydrateOne_references])
    rw [hydrateOne_references, getMessages_hydrateOne] at next
    have own : ({ references := t.references } : Store).keyOf c.peerUserId =
        t.keyOf c.peerUserId := by cases c.peerUserId <;> rfl
    rw [own] at absent
    rw [List.foldl_cons, next, placed, restoredIn_cons, own]
    by_cases here : key = t.keyOf c.peerUserId
    · rw [if_pos here, if_pos here.symm, here, restoredIn_absent absent, List.nil_append]
    · rw [if_neg here, if_neg (Ne.symm here)]

/-! ### Ids -/

/-- Every id of a message has been counted. -/
def Below (s : Store) (bound : Nat) : Prop :=
  ∀ key, ∀ id ∈ idsAt s key, ∃ n < bound, id = messageId n

/-- The same of saved conversations. -/
def BelowIn (conversations : List Conversation) (bound : Nat) : Prop :=
  ∀ c ∈ conversations, ∀ m ∈ c.messages, ∃ n < bound, m.id = messageId n

theorem Below.mono {s : Store} {bound more : Nat} (below : Below s bound) (grown : bound ≤ more) :
    Below s more := by
  intro key id member
  obtain ⟨n, less, same⟩ := below key id member
  exact ⟨n, by omega, same⟩

theorem BelowIn.mono {list : List Conversation} {bound more : Nat} (below : BelowIn list bound)
    (grown : bound ≤ more) : BelowIn list more := by
  intro c inside m member
  obtain ⟨n, less, same⟩ := below c inside m member
  exact ⟨n, by omega, same⟩

theorem Below.empty {s : Store} (empty : s.convs = ∅) (bound : Nat) : Below s bound := by
  intro key id member
  rw [idsAt, getMessages, empty] at member
  cases member

theorem Below.fresh {s : Store} {bound n : Nat} (below : Below s bound) (key : Key)
    (later : bound ≤ n) : messageId n ∉ idsAt s key := by
  intro member
  obtain ⟨k, less, same⟩ := below key _ member
  rw [messageId_injective same] at later
  omega

theorem Below.effect {s s' : Store} {opens : Key → Prop} {made : Option Key}
    (below : Below s s.counter) (effect : Effect opens made s s') : Below s' s'.counter := by
  intro key id member
  rw [effect.ids, List.mem_append] at member
  have grown : s.counter ≤ s'.counter := by
    rw [effect.counter]
    omega
  rcases member with before | last
  · exact below.mono grown key id before
  · split at last
    · next named =>
      have counter := effect.counter
      rw [named, Option.isSome_some, if_pos rfl] at counter
      exact ⟨s.counter, by omega, List.mem_singleton.mp last⟩
    · cases last

theorem Below.persisted {s : Store} (below : Below s s.counter) :
    BelowIn (schedulePersist s).conversations s.counter := by
  intro _ member m inside
  obtain ⟨c, there, rfl⟩ := List.mem_map.mp member
  obtain ⟨key, found⟩ := FinMap.mem_values.mp there
  refine below key m.id ?_
  obtain ⟨original, kept, rfl⟩ := List.mem_map.mp inside
  rw [idsAt_eq, ensure_of_lookup found]
  exact List.mem_map.mpr ⟨original, kept, rfl⟩

theorem Below.hydrate {s : Store} {data : PersistedState} (below : Below s s.counter)
    (saved : BelowIn data.conversations data.counter) :
    Below (s.hydrate data) (s.hydrate data).counter := by
  rw [hydrate_counter]
  refine hydrate_invariant (Below · (max s.counter data.counter))
    (below.mono (Nat.le_max_left ..)) ?_ fun _ below => below
  intro t c inside below key id member
  rw [idsAt, getMessages_hydrateOne] at member
  split at member
  · rw [List.map_append, List.mem_append] at member
    rcases member with restored | there
    · obtain ⟨m, inside', rfl⟩ := List.mem_map.mp restored
      exact saved.mono (Nat.le_max_right ..) c inside m inside'
    · exact below key id there
  · exact below key id member

/-- A state in which the ids of each thread are distinct and counted. -/
structure Counted (s : Store) : Prop where
  once : ∀ key, (idsAt s key).Nodup
  below : ∀ key, ∀ id ∈ idsAt s key, ∃ n < s.counter, id = messageId n

/-- The same of what is saved. -/
structure CountedState (data : PersistedState) : Prop where
  once : ∀ c ∈ data.conversations, (c.messages.map (·.id)).Nodup
  below : ∀ c ∈ data.conversations, ∀ m ∈ c.messages, ∃ n < data.counter, m.id = messageId n

theorem Counted.fresh {s : Store} (counted : Counted s) (key : Key) {n : Nat}
    (later : s.counter ≤ n) : messageId n ∉ idsAt s key := Below.fresh counted.below key later

theorem Counted.empty {s : Store} (empty : s.convs = ∅) : Counted s where
  once key := by
    rw [idsAt, getMessages, empty]
    exact List.nodup_nil
  below := Below.empty empty _

/-- A new message's id is new. -/
theorem Counted.effect {s s' : Store} {opens : Key → Prop} {made : Option Key}
    (counted : Counted s) (effect : Effect opens made s s') : Counted s' where
  once key := by
    rw [effect.ids]
    split
    · have fresh := counted.fresh key (Nat.le_refl s.counter)
      rw [List.nodup_append]
      refine ⟨counted.once key, List.nodup_singleton _, ?_⟩
      rintro id inside other last rfl
      exact fresh (List.mem_singleton.mp last ▸ inside)
    · rw [List.append_nil]
      exact counted.once key
  below := Below.effect counted.below effect

theorem Counted.persisted {s : Store} (counted : Counted s) : CountedState (schedulePersist s) where
  once _ member := by
    obtain ⟨c, inside, rfl⟩ := List.mem_map.mp member
    obtain ⟨key, found⟩ := FinMap.mem_values.mp inside
    have once := counted.once key
    rw [idsAt_eq, ensure_of_lookup found] at once
    rw [persistedConversation, List.map_map]
    exact once
  below := Below.persisted counted.below

theorem mem_placed {n : Nat} {list : List Conversation} {e : Key × Conversation}
    (member : e ∈ placed n list) : e.2 ∈ list := by
  induction list generalizing n with
  | nil => cases member
  | cons c rest ih =>
    rcases List.mem_cons.mp member with rfl | later
    · exact List.mem_cons_self
    · exact List.mem_cons_of_mem _ (ih later)

theorem restoredIn_cases (restored : List (Key × Conversation)) (key : Key) :
    restoredIn restored key = [] ∨
      ∃ e ∈ restored, e.1 = key ∧ restoredIn restored key = e.2.messages := by
  unfold restoredIn
  cases found : restored.find? fun e => e.1 = key with
  | none => exact .inl rfl
  | some e =>
    exact .inr ⟨e, List.mem_of_find?_eq_some found, by simpa using List.find?_some found, rfl⟩

/-- A load that does not clash keeps the ids distinct. -/
theorem Counted.hydrate {s : Store} (counted : Counted s) {data : PersistedState}
    (saved : CountedState data)
    (apart : ((placed s.references data.conversations).map (·.1)).Nodup)
    (clear : ∀ e ∈ placed s.references data.conversations, ∀ m ∈ e.2.messages,
      m.id ∉ idsAt s e.1) : Counted (s.hydrate data) where
  once key := by
    rw [idsAt, getMessages_hydrate apart, List.map_append]
    rcases restoredIn_cases (placed s.references data.conversations) key with
      none | ⟨e, member, rfl, same⟩
    · rw [none]
      exact counted.once key
    · rw [same, List.nodup_append]
      refine ⟨saved.once e.2 (mem_placed member), counted.once e.1, ?_⟩
      rintro _ inside id there rfl
      obtain ⟨m, inside, same⟩ := List.mem_map.mp inside
      exact clear e member m inside (same ▸ there)
  below := Below.hydrate counted.below saved.below

/-! ### Whole runs -/

/-- What holds of a session in which no load has clashed. -/
structure Sound (x : Session) : Prop where
  counted : Counted x.phone.store
  saved : ∀ data ∈ x.phone.messages, CountedState data
  waiting : ∀ task ∈ x.phone.loading, ∀ data ∈ task.work, CountedState data
  unstarted : x.phone.started = false → x.phone.loading = none ∧ x.restored = []
  unrestored : x.phone.loading ≠ none → x.restored = []
  exactly : ∀ key, idsAt x.phone.store key =
    (restoredIn x.restored key).map (·.id) ++ x.madeIn key

theorem madeIn_append (x : Session) (phone : Phone) (thread : Option Key) (id : Text) (key : Key) :
    ({ x with phone, made := x.made ++ thread.toList.map fun key => (key, id) } : Session).madeIn key =
      x.madeIn key ++ if thread = some key then [id] else [] := by
  unfold Session.madeIn
  rw [List.filter_append, List.map_append]
  cases thread with
  | none => rfl
  | some other => by_cases same : other = key <;> simp [same]

theorem Sound.emptied {phone : Phone} (empty : phone.store.convs = ∅)
    (saved : ∀ data ∈ phone.messages, CountedState data)
    (waiting : ∀ task ∈ phone.loading, ∀ data ∈ task.work, CountedState data)
    (unstarted : phone.started = false → phone.loading = none) : Sound { phone } where
  counted := .empty empty
  saved := saved
  waiting := waiting
  unstarted idle := ⟨unstarted idle, rfl⟩
  unrestored _ := rfl
  exactly key := by
    rw [idsAt, getMessages, empty]
    rfl

/-- A step that leaves the disk alone. -/
theorem Sound.effect {x : Session} {action : Action} {phone : Phone} (sound : Sound x)
    (moved : x.phone.step action = some phone) (apart : ¬ touchesDisk action) :
    Sound { x with
      phone
      made := x.made ++ (ConversationPhone.made x.phone action).toList.map fun key =>
        (key, messageId x.phone.store.counter) } := by
  have effect := step_effect moved (mt touchesDisk_of_replaces apart)
  have disk := step_sameDisk moved apart
  exact
    { counted := sound.counted.effect effect
      saved := by
        rw [disk.messages]
        exact sound.saved
      waiting := by
        rw [disk.loading]
        exact sound.waiting
      unstarted := by
        rw [disk.loading, disk.started]
        exact sound.unstarted
      unrestored := by
        rw [disk.loading]
        exact sound.unrestored
      exactly := fun key => by
        rw [effect.ids, sound.exactly, madeIn_append, List.append_assoc] }

theorem cleared_counted : CountedState cleared where
  once c member := by cases member
  below c member := by cases member

/-- A load that has failed, or found nothing. -/
theorem Sound.unloaded {x : Session} (sound : Sound x) :
    Sound { x with phone := { x.phone with loading := none } } where
  counted := sound.counted
  saved := sound.saved
  waiting task member := by cases member
  unstarted idle := ⟨rfl, (sound.unstarted idle).2⟩
  unrestored waits := absurd rfl waits
  exactly := sound.exactly

/-- A load that has completed. -/
theorem Sound.hydrated {x : Session} {former : Bool} {phone : Phone} (sound : Sound x)
    (quiet : Unclashing x (.hydrated former true))
    (moved : x.phone.step (.hydrated former true) = some phone) :
    Sound { x with phone, restored := loaded x.phone } := by
  obtain ⟨⟨work, former⟩, waits, rfl, rfl⟩ := step_hydrated moved
  have waiting : x.phone.loading ≠ none := by
    rw [waits]
    exact Option.some_ne_none _
  have nothing := sound.unrestored waiting
  cases work with
  | none =>
    have unchanged : loaded x.phone = x.restored := by rw [loaded, waits, nothing]
    rw [unchanged]
    exact sound.unloaded
  | some data =>
    have entries : loaded x.phone = placed x.phone.store.references data.conversations := by
      rw [loaded, waits]
    obtain ⟨apart, clear⟩ := quiet
    rw [entries] at apart clear ⊢
    exact
      { counted := sound.counted.hydrate (sound.waiting _ waits data rfl) apart clear
        saved := sound.saved
        waiting := fun task member => by cases member
        unstarted := fun idle => absurd (sound.unstarted idle).1 waiting
        unrestored := fun waits => absurd rfl waits
        exactly := fun key => by
          have before := sound.exactly key
          rw [nothing] at before
          change (getMessages (x.phone.store.hydrate data) key).map (·.id) = _
          rw [getMessages_hydrate apart, List.map_append]
          exact congrArg _ before }

/-- A step that makes no message. -/
theorem Sound.unmade {x : Session} (sound : Sound x) : Sound { x with made := x.made ++ [] } := by
  rwa [List.append_nil]

theorem Sound.started {x : Session} (sound : Sound x) (idle : ¬ x.phone.started) :
    Sound { x with phone :=
      { x.phone with started := true, loading := some { work := x.phone.messages } } } where
  counted := sound.counted
  saved := sound.saved
  waiting task member := by
    cases member
    exact sound.saved
  unstarted idle := by cases idle
  unrestored _ := (sound.unstarted (Bool.eq_false_iff.mpr idle)).2
  exactly := sound.exactly

theorem Sound.saving {x : Session} (sound : Sound x) :
    Sound { x with phone :=
      { x.phone with messages := some (schedulePersist x.phone.store) } } where
  counted := sound.counted
  saved data member := by
    cases member
    exact sound.counted.persisted
  waiting := sound.waiting
  unstarted := sound.unstarted
  unrestored := sound.unrestored
  exactly := sound.exactly

theorem Sound.reset {x : Session} (sound : Sound x) (written : Bool) :
    Sound { phone := x.phone.reset written } := by
  refine .emptied rfl ?_ ?_ fun idle => ?_
  · intro data member
    cases written with
    | true =>
      cases member
      exact cleared_counted
    | false => exact sound.saved data member
  · intro task member
    obtain ⟨earlier, waits, rfl⟩ := Option.map_eq_some_iff.mp member
    exact sound.waiting earlier waits
  · exact congrArg (Option.map Pending.retire) (sound.unstarted idle).1

theorem step_sound {x x' : Session} {action : Action} (sound : Sound x)
    (quiet : Unclashing x action) (moved : x.step action = some x') : Sound x' := by
  obtain ⟨phone, stepped, rfl⟩ := Option.map_eq_some_iff.mp moved
  cases action with
  | start =>
    obtain ⟨idle, same⟩ := Option.ite_none_left_eq_some.mp stepped
    cases same
    exact (sound.started idle).unmade
  | save written =>
    cases stepped
    cases written with
    | true => exact sound.saving.unmade
    | false => exact sound.unmade
  | hydrated former read =>
    cases read with
    | true => exact sound.hydrated quiet stepped
    | false =>
      obtain ⟨task, -, -, rfl⟩ := step_hydrated stepped
      exact sound.unloaded.unmade
  | kill =>
    cases stepped
    exact .emptied rfl sound.saved (fun task member => by cases member) fun _ => rfl
  | reset written =>
    cases stepped
    exact sound.reset written
  | _ => exact sound.effect stepped id

theorem sound_of_reached {x : Session} (reached : session.Reached Unclashing x) : Sound x := by
  refine reached.invariant Sound ?_ fun x action x' sound quiet moved =>
    step_sound sound quiet moved
  rintro x rfl
  exact .emptied rfl (fun data member => by cases member) (fun task member => by cases member)
    fun _ => rfl

/-! ### At most one message is changed -/

theorem patch_changesAtMostOne (s : Store) (key : Key) (id : Text)
    (fields : ChatMessage → ChatMessage) : ChangesAtMostOne s (s.patch key id fields) := by
  refine ⟨key, ((getMessages s key).findIdx? fun m => m.id = id).getD 0, fun other j => ?_⟩
  rw [getMessages_patch]
  by_cases here : other = key
  · rw [if_pos here, here, changeFirst]
    cases (getMessages s key).findIdx? fun m => m.id = id with
    | none => exact .inr rfl
    | some i =>
      by_cases same : j = i
      · exact .inl ⟨rfl, same⟩
      · exact .inr (List.getElem?_modify_ne _ _ (Ne.symm same))
  · rw [if_neg here]
    exact .inr rfl

theorem getMessages_editMessages (s : Store) (key other : Key) (id : Text)
    (edit : ChatMessage → ChatMessage) :
    getMessages (s.editMessages key id edit) other =
      if other = key then (getMessages s key).map fun m => if m.id = id then edit m else m
      else getMessages s other := by
  unfold Store.editMessages
  cases found : s.convs.lookup key with
  | none =>
    have nothing : getMessages s key = [] := by rw [getMessages, found, Option.elim_none]
    by_cases here : other = key
    · rw [if_pos here, here, nothing]
      rfl
    · rw [if_neg here]
  | some conv =>
    have there : getMessages s key = conv.messages := by rw [getMessages, found, Option.elim_some]
    rw [there]
    exact getMessages_set s key other _

/-- Where ids are distinct, only one message has the id. -/
theorem editMessages_changesAtMostOne {s : Store} {key : Key} (once : (idsAt s key).Nodup)
    (id : Text) (edit : ChatMessage → ChatMessage) :
    ChangesAtMostOne s (s.editMessages key id edit) := by
  refine ⟨key, (idsAt s key).idxOf id, fun other j => ?_⟩
  rw [getMessages_editMessages]
  by_cases here : other = key
  · rw [if_pos here, here, List.getElem?_map]
    cases there : (getMessages s key)[j]? with
    | none => exact .inr rfl
    | some m =>
      by_cases same : m.id = id
      · have at_j : (idsAt s key)[j]? = some id := by
          rw [idsAt, List.getElem?_map, there, Option.map_some, same]
        obtain ⟨bound, equal⟩ := List.getElem?_eq_some_iff.mp at_j
        exact .inl ⟨rfl, (equal ▸ once.idxOf_getElem j bound).symm⟩
      · exact .inr (by rw [Option.map_some, if_neg same])
  · rw [if_neg here]
    exact .inr rfl

/-- In every run in which no load clashes, every thread has exactly what was
saved and then what is new, each message once, and no id is used again; and a
load puts the saved messages, as they are, before those that are there. -/
theorem hydration_merges {x : Session} (reached : session.Reached Unclashing x) :
    Merged x ∧ ∀ former phone, Unclashing x (.hydrated former true) →
      x.phone.step (.hydrated former true) = some phone →
      ∀ key, getMessages phone.store key =
        restoredIn (loaded x.phone) key ++ getMessages x.phone.store key := by
  have sound := sound_of_reached reached
  constructor
  · exact
      { exactly := sound.exactly
        once := sound.counted.once
        fresh := fun key n later => sound.counted.fresh key later
        patch := patch_changesAtMostOne _
        toggleStar := fun key id => editMessages_changesAtMostOne (sound.counted.once key) id _
        dismissScamWarning := fun key id =>
          editMessages_changesAtMostOne (sound.counted.once key) id _ }
  · intro former phone quiet moved key
    obtain ⟨⟨work, former⟩, waits, rfl, rfl⟩ := step_hydrated moved
    rw [loaded, waits]
    cases work with
    | none => rfl
    | some data =>
      obtain ⟨apart, -⟩ := quiet
      rw [loaded, waits] at apart
      exact getMessages_hydrate apart key

/-! ### A message that arrives before the load completes -/

def bob : Key := .user (utf16 "bob")

/-- bob's first message of a session. -/
def fromBob : List Action :=
  let envelope : Sealed := { senderId := utf16 "bob", envelopeId := some (utf16 "e1") }
  [.deliver envelope false,
    .decrypted { work := envelope } (some { text := utf16 "hi", receivedAt := 2, verdict := none })]

/-- alice writes to bob; what she wrote is saved, and the app is started again. -/
def restarted : List Action :=
  [.signIn (utf16 "alice"), .start, .hydrated false true, .send bob (utf16 "hello") 1, .save true,
    .kill, .signIn (utf16 "alice"), .start]

/-- A load that completes first is followed by what is new. -/
theorem load_before_message :
    ∃ x, session.Reached Unclashing x ∧ x.restored.length = 1 ∧ (x.madeIn bob).length = 1 ∧
      Merged x := by
  have observed : ((session.checkedRun Unclashing {}
      (restarted ++ [.hydrated false true] ++ fromBob)).map fun x =>
      (x.restored.length, (x.madeIn bob).length)) = some (1, 1) := by decide +kernel
  obtain ⟨x, reached, seen⟩ := Machine.reached_of_observed observed (.start rfl)
  obtain ⟨restored, made⟩ : _ ∧ _ := by simpa only [Prod.mk.injEq] using seen
  exact ⟨x, reached, restored, made, (hydration_merges reached).1⟩

/-- bob's message comes before the load completes, and has the id of the message
that was saved: starring the one stars both. -/
theorem message_before_load :
    ∃ x, session.Reachable x ∧ idsAt x.phone.store bob = [messageId 0, messageId 0] ∧
      (getMessages (x.phone.store.toggleStar bob (messageId 0)) bob).map (·.starred) =
        [true, true] ∧
      ¬ Merged x := by
  have observed : ((session.run {} (restarted ++ fromBob ++ [.hydrated false true])).map fun x =>
      (idsAt x.phone.store bob,
        (getMessages (x.phone.store.toggleStar bob (messageId 0)) bob).map (·.starred))) =
      some ([messageId 0, messageId 0], [true, true]) := by decide +kernel
  obtain ⟨x, reachable, seen⟩ := Machine.reachable_of_observed observed rfl
  obtain ⟨ids, starred⟩ : _ ∧ _ := by simpa only [Prod.mk.injEq] using seen
  refine ⟨x, reachable, ids, starred, fun merged => ?_⟩
  have once := merged.once bob
  rw [ids] at once
  exact absurd once (by decide +kernel)

end Hwfa.ConversationHydration
