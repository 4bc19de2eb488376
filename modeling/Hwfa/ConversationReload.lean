import Hwfa.ConversationPhone

/-!
What of the conversations survives a restart.

The writer spreads a whole conversation; the reader lists the fields it takes,
and two of them are missing: a group comes back as a chat with the group's id,
and a peer's identity key is forgotten.  Everything else comes back, where JSON
keeps it: a payload that was parsed may hold an infinite number, which JSON
writes `null`.
-/

namespace Hwfa.ConversationReload

open Hwfa.Json Hwfa.Maps Hwfa.Machines Hwfa.ConversationStore Hwfa.ConversationInbound
open Hwfa.ConversationPhone

/-! ### Reloading -/

/-- A new process's store, once it has read what was saved. -/
def reload (s : Store) : Store := ({} : Store).hydrate (schedulePersist s)

/-- A message without its decrypted bytes, its values as they are listed. -/
def comparable (m : ChatMessage) : ChatMessage :=
  { m with
    text := canonical m.text
    media := m.media.map canonical
    mediaMime := canonical m.mediaMime
    mediaName := canonical m.mediaName
    mediaSize := canonical m.mediaSize
    mediaUri := none
    mediaState := none }

def comparableGroup (group : GroupInfo) : Value × Value :=
  (canonical group.name, canonical group.members)

structure SameConversation (c c' : Conversation) : Prop where
  peerUserId : Same c.peerUserId c'.peerUserId
  peerPhone : c.peerPhone = c'.peerPhone
  group : c.group.map comparableGroup = c'.group.map comparableGroup
  peerIdentityB64 : c.peerIdentityB64 = c'.peerIdentityB64
  unread : c.unread = c'.unread
  lastAt : c.lastAt = c'.lastAt
  messages : c.messages.map comparable = c'.messages.map comparable

/-- What is saved comes back. -/
structure Reloads (s : Store) : Prop where
  counter : s.counter = (reload s).counter
  conversations : ∀ c ∈ s.convs.values, ∃ c' ∈ (reload s).convs.values, SameConversation c c'

/-- JSON keeps what a message holds. -/
def keptMessage (m : ChatMessage) : Bool :=
  isKept m.text && m.media.all isKept && isKept m.mediaMime && isKept m.mediaName &&
    isKept m.mediaSize

/-- A chat of two whose peer's identity key has not been cached, and whose values
JSON keeps. -/
def storable (c : Conversation) : Bool :=
  c.group.isNone && c.peerIdentityB64.isNone && isKept c.peerUserId && c.messages.all keptMessage

/-! ### What comes back -/

/-- A saved conversation that no other has the key of. -/
def restored (c : Conversation) : Conversation where
  peerUserId := reread c.peerUserId
  peerPhone := c.peerPhone
  messages := c.messages.map persistedMessage
  unread := c.unread
  lastAt := c.lastAt

theorem keptMessage_comparable (m : ChatMessage) : keptMessage (comparable m) = keptMessage m := by
  have kept (v : Value) : isKept (canonical v) = isKept v :=
    Bool.eq_iff_iff.mpr (isKept_canonical v)
  unfold keptMessage comparable
  cases m.media <;> simp [kept]

theorem keptMessage_persisted (m : ChatMessage) : keptMessage (persistedMessage m) := by
  unfold keptMessage persistedMessage
  cases m.media <;> simp [isKept_reread]

theorem comparable_persisted {m : ChatMessage} (kept : keptMessage m) :
    comparable m = comparable (persistedMessage m) := by
  have back {v : Value} (kept : isKept v) : canonical (reread v) = canonical v :=
    (same_reread_of_kept kept).symm
  simp only [keptMessage, Bool.and_eq_true] at kept
  obtain ⟨⟨⟨⟨text, media⟩, mime⟩, name⟩, size⟩ := kept
  have attached : (m.media.map reread).map canonical = m.media.map canonical := by
    cases there : m.media with
    | none => rfl
    | some v =>
      rw [there] at media
      exact congrArg some (back media)
  unfold comparable persistedMessage
  rw [attached, back text, back mime, back name, back size]

theorem sameConversation_restored {c : Conversation} (kept : storable c) :
    SameConversation c (restored c) := by
  simp only [storable, Bool.and_eq_true, Option.isNone_iff_eq_none] at kept
  obtain ⟨⟨⟨group, identity⟩, peer⟩, messages⟩ := kept
  exact
    { peerUserId := same_reread_of_kept peer
      peerPhone := rfl
      group := by rw [group]; rfl
      peerIdentityB64 := identity
      unread := rfl
      lastAt := rfl
      messages := by
        rw [restored, List.map_map]
        exact List.map_congr_left fun m inside =>
          comparable_persisted (List.all_eq_true.mp messages m inside) }

/-- Only what is storable is the same as something storable. -/
theorem storable_of_same {c c' : Conversation} (same : SameConversation c c')
    (kept : storable c') : storable c := by
  simp only [storable, Bool.and_eq_true, Option.isNone_iff_eq_none] at kept ⊢
  obtain ⟨⟨⟨group, identity⟩, peer⟩, messages⟩ := kept
  refine ⟨⟨⟨?_, same.peerIdentityB64.trans identity⟩, ?_⟩, List.all_eq_true.mpr fun m inside => ?_⟩
  · have absent := same.group
    rw [group] at absent
    exact Option.map_eq_none_iff.mp absent
  · rwa [← isKept_canonical, show canonical c.peerUserId = canonical c'.peerUserId from
      same.peerUserId, isKept_canonical]
  · have member : comparable m ∈ c'.messages.map comparable :=
      same.messages ▸ List.mem_map_of_mem inside
    obtain ⟨m', inside', equal⟩ := List.mem_map.mp member
    rw [← keptMessage_comparable, ← equal, keptMessage_comparable]
    exact List.all_eq_true.mp messages m' inside'

/-- All that is read back is storable. -/
def AllStorable (s : Store) : Prop := ∀ key c, s.convs.lookup key = some c → storable c

theorem hydrateOne_storable {s : Store} (all : AllStorable s) (c : Conversation) :
    AllStorable (s.hydrateOne (persistedConversation c)) := by
  have messages : ∀ m ∈ (persistedConversation c).messages, keptMessage m := by
    intro m inside
    obtain ⟨m', -, rfl⟩ := List.mem_map.mp inside
    exact keptMessage_persisted m'
  intro key c' found
  unfold Store.hydrateOne at found
  dsimp only at found
  split at found
  · next existing there =>
    have before : storable existing := all _ _ there
    simp only [storable, Bool.and_eq_true, Option.isNone_iff_eq_none] at before
    obtain ⟨⟨⟨group, identity⟩, peer⟩, earlier⟩ := before
    rw [lookup_set] at found
    split at found
    · cases found
      simp only [storable, Bool.and_eq_true, Option.isNone_iff_eq_none, List.all_append]
      exact ⟨⟨⟨group, identity⟩, peer⟩, List.all_eq_true.mpr messages, earlier⟩
    · exact all _ _ found
  · rw [lookup_set] at found
    split at found
    · cases found
      simp only [storable, Bool.and_eq_true, Option.isNone_iff_eq_none]
      exact ⟨⟨⟨trivial, trivial⟩, isKept_reread _⟩, List.all_eq_true.mpr messages⟩
    · exact all _ _ found

theorem reload_storable (s : Store) : AllStorable (reload s) := by
  refine hydrate_invariant AllStorable (fun key c found => by cases found) ?_ fun _ all => all
  intro t c inside all
  obtain ⟨original, -, rfl⟩ := List.mem_map.mp inside
  exact hydrateOne_storable all original

/-! ### What is kept comes back -/

/-- Every thread knows its own key, and no thread has an object's key for a
primitive value. -/
structure Keyed (s : Store) : Prop where
  peers : ∀ key, (s.ensure key).peerUserId = key.value
  proper : ∀ key, (s.convs.lookup key).isSome → Proper key

/-- The references of a store are of values parsed before. -/
def Below (s : Store) : Prop :=
  ∀ reference v, (s.convs.lookup (.object reference v)).isSome → reference < s.references

/-- The key under which a thread comes back: its own, or that of a new object. -/
theorem keyOf_reread (t : Store) {key : Key} (proper : Proper key) (kept : isKept key.value) :
    (∃ p, key = .primitive p ∧ t.keyOf (reread key.value) = key) ∨
      ∃ v, t.keyOf (reread key.value) = .object t.references v := by
  rw [reread_of_kept kept]
  cases key with
  | primitive p => exact .inl ⟨p, rfl, rfl⟩
  | object reference v =>
    cases v with
    | primitive p => exact absurd rfl (proper reference p)
    | array elements => exact .inr ⟨_, rfl⟩
    | object members => exact .inr ⟨_, rfl⟩

theorem hydrateOne_free {t : Store} {c : Conversation}
    (free : t.convs.lookup (t.keyOf (reread c.peerUserId)) = none) :
    t.hydrateOne (persistedConversation c) =
      ({ t with references := t.references + 1 } : Store).set (t.keyOf (reread c.peerUserId))
        (restored c) := by
  unfold Store.hydrateOne
  dsimp only [persistedConversation]
  rw [free]
  rfl

/-- Threads with keys of their own come back one by one, and disturb no thread
that is there. -/
theorem hydrate_restores (entries : List (Σ _ : Key, Conversation)) (distinct : entries.NodupKeys)
    (own : ∀ e ∈ entries, e.2.peerUserId = e.1.value ∧ Proper e.1 ∧ isKept e.2.peerUserId)
    (t : Store) (below : Below t)
    (apart : ∀ e ∈ entries, ∀ p, e.1 = .primitive p → t.convs.lookup e.1 = none) :
    let t' := (entries.map fun e => persistedConversation e.2).foldl Store.hydrateOne t
    (∀ key, (t.convs.lookup key).isSome → t'.convs.lookup key = t.convs.lookup key) ∧
      ∀ e ∈ entries, ∃ key, t'.convs.lookup key = some (restored e.2) := by
  induction entries generalizing t with
  | nil => exact ⟨fun _ _ => rfl, fun _ member => absurd member List.not_mem_nil⟩
  | cons e rest ih =>
    obtain ⟨absent, distinct⟩ := List.nodupKeys_cons.mp distinct
    obtain ⟨peer, proper, kept⟩ := own e List.mem_cons_self
    rw [peer] at kept
    have place := keyOf_reread t proper kept
    rw [← peer] at place
    have free : t.convs.lookup (t.keyOf (reread e.2.peerUserId)) = none := by
      rcases place with ⟨p, primitive, same⟩ | ⟨v, object⟩
      · rw [same]
        exact apart e List.mem_cons_self p primitive
      · rw [object, ← Option.not_isSome_iff_eq_none]
        exact fun there => absurd (below t.references v there) (Nat.lt_irrefl _)
    rw [List.map_cons, List.foldl_cons, hydrateOne_free free]
    generalize t.keyOf (reread e.2.peerUserId) = key at place free
    obtain ⟨undisturbed, found⟩ := ih distinct (fun e' member => own e' (List.mem_cons_of_mem _ member))
      (({ t with references := t.references + 1 } : Store).set key (restored e.2))
      (by
        intro reference v there
        rw [lookup_set] at there
        split at there
        · next same =>
          rcases place with ⟨p, primitive, own⟩ | ⟨w, object⟩
          · rw [← same, primitive] at own
            cases own
          · rw [object] at same
            cases same
            exact Nat.lt_succ_self _
        · exact Nat.lt_succ_of_lt (below reference v there))
      (by
        intro e' member p primitive
        rw [lookup_set, if_neg]
        · exact apart e' (List.mem_cons_of_mem _ member) p primitive
        · intro same
          rcases place with ⟨q, -, own⟩ | ⟨w, object⟩
          · exact absent (List.mem_map.mpr ⟨e', member, same.trans own⟩)
          · rw [primitive, object] at same
            cases same)
    refine ⟨fun other there => ?_, List.forall_mem_cons.mpr ⟨⟨key, ?_⟩, found⟩⟩
    · have other_ne : other ≠ key := by
        rintro rfl
        rw [free] at there
        cases there
      have still := lookup_set { t with references := t.references + 1 } key other (restored e.2)
      rw [if_neg other_ne] at still
      rw [undisturbed other (by rw [still]; exact there), still]
    · have here := lookup_set { t with references := t.references + 1 } key key (restored e.2)
      rw [if_pos rfl] at here
      rw [undisturbed key (by rw [here]; rfl), here]

theorem reload_restores {s : Store} (keyed : Keyed s) (kept : ∀ c ∈ s.convs.values, storable c) :
    ∀ c ∈ s.convs.values, restored c ∈ (reload s).convs.values := by
  have own : ∀ e ∈ s.convs.entries,
      e.2.peerUserId = e.1.value ∧ Proper e.1 ∧ isKept e.2.peerUserId := by
    intro e member
    have found : s.convs.lookup e.1 = some e.2 := AList.mem_lookup_iff.mpr member
    have peer := keyed.peers e.1
    rw [ensure_of_lookup found] at peer
    have fit := kept e.2 (List.mem_map_of_mem member)
    simp only [storable, Bool.and_eq_true] at fit
    exact ⟨peer, keyed.proper e.1 (by rw [found]; rfl), fit.1.2⟩
  have restores := (hydrate_restores s.convs.entries s.convs.nodupKeys own
    { counter := max 0 s.counter } (fun _ _ there => by cases there) (fun _ _ _ _ => rfl)).2
  intro c member
  obtain ⟨e, inside, rfl⟩ := List.mem_map.mp member
  obtain ⟨key, found⟩ := restores e inside
  refine FinMap.mem_values.mpr ⟨key, ?_⟩
  unfold reload Store.hydrate schedulePersist FinMap.values
  rw [List.map_map]
  exact found

/-! ### Every thread knows its key -/

theorem keyOf_value (s : Store) (v : Value) : (s.keyOf v).value = v := by
  cases v <;> rfl

theorem Keyed.set {s : Store} (keyed : Keyed s) {key : Key} {conv : Conversation}
    (peer : conv.peerUserId = key.value) (proper : Proper key) : Keyed (s.set key conv) where
  peers other := by
    rw [Store.ensure, lookup_set]
    split
    · next same => rw [same, Option.getD_some, peer]
    · exact keyed.peers other
  proper other there := by
    rw [lookup_set] at there
    split at there
    · next same => rwa [same]
    · exact keyed.proper other there

theorem Keyed.empty {s : Store} (empty : s.convs = ∅) : Keyed s where
  peers key := by
    rw [Store.ensure, empty]
    rfl
  proper key there := by
    rw [empty] at there
    cases there

theorem Keyed.hydrateOne {s : Store} (keyed : Keyed s) (c : Conversation) :
    Keyed (s.hydrateOne c) := by
  have proper := proper_keyOf s c.peerUserId
  have counted : Keyed { s with references := s.references + 1 } := ⟨keyed.peers, keyed.proper⟩
  unfold Store.hydrateOne
  dsimp only
  split
  · next existing found =>
    have there : s.convs.lookup (s.keyOf c.peerUserId) = some existing := found
    have peer := keyed.peers (s.keyOf c.peerUserId)
    rw [ensure_of_lookup there] at peer
    exact counted.set peer proper
  · exact counted.set (keyOf_value s c.peerUserId).symm proper

theorem Keyed.hydrate {s : Store} (keyed : Keyed s) (data : PersistedState) :
    Keyed (s.hydrate data) :=
  hydrate_invariant Keyed ⟨keyed.peers, keyed.proper⟩ (fun _ c _ keyed => keyed.hydrateOne c)
    fun _ keyed => ⟨keyed.peers, keyed.proper⟩

theorem Keyed.effect {s s' : Store} {opens : Key → Prop} {made : Option Key} (keyed : Keyed s)
    (effect : Effect opens made s s') (proper : ∀ key, opens key → Proper key) : Keyed s' where
  peers key := (effect.peers key).trans (keyed.peers key)
  proper key there := (effect.opened key there).elim (keyed.proper key) (proper key)

theorem proper_of_opens (action : Action) {key : Key} (may : opens action key) : Proper key := by
  cases action with
  | decrypted => exact may
  | _ =>
    obtain ⟨userId, rfl⟩ := may
    exact proper_user userId

theorem keyed_of_reachable {p : Phone} (reached : phone.Reachable p) : Keyed p.store := by
  refine reached.invariant (fun p => Keyed p.store) ?_ ?_
  · rintro s rfl
    exact .empty rfl
  · intro s action s' keyed _ moved
    by_cases kept : replaces action
    · cases action with
      | hydrated former read =>
        obtain ⟨task, -, -, rfl⟩ := step_hydrated moved
        dsimp only
        cases (if read then task.work else none) with
        | none => exact keyed
        | some data => exact keyed.hydrate data
      | kill =>
        cases moved
        exact .empty rfl
      | reset written =>
        cases moved
        exact .empty rfl
      | _ => exact kept.elim
    · exact keyed.effect (step_effect moved kept) fun _ => proper_of_opens action

theorem storable_of_reloads {s : Store} (reloads : Reloads s) : ∀ c ∈ s.convs.values, storable c := by
  intro c member
  obtain ⟨c', member', same⟩ := reloads.conversations c member
  obtain ⟨key, found⟩ := FinMap.mem_values.mp member'
  exact storable_of_same same (reload_storable s key c' found)

/-- In every state that is reached, what is saved comes back exactly when every
conversation is storable. -/
theorem reloads_iff_storable {p : Phone} (reached : phone.Reachable p) :
    Reloads p.store ↔ ∀ c ∈ p.store.convs.values, storable c := by
  refine ⟨storable_of_reloads, fun kept => ?_⟩
  refine ⟨?_, fun c member => ⟨restored c, ?_, sameConversation_restored (kept c member)⟩⟩
  · rw [reload, hydrate_counter]
    exact (Nat.zero_max _).symm
  · exact reload_restores (keyed_of_reachable reached) kept c member

/-! ### A group that comes back as a chat -/

/-- alice signs in on a new phone. -/
def signedIn : List Action := [.signIn (utf16 "alice"), .start, .hydrated false true]

/-- alice and bob exchange a message each. -/
def withBob : List Action :=
  let envelope : Sealed := { senderId := utf16 "bob", envelopeId := some (utf16 "e1") }
  signedIn ++ [.send (.user (utf16 "bob")) (utf16 "hello") 1, .deliver envelope false,
    .decrypted { work := envelope } (some { text := utf16 "hi", receivedAt := 2, verdict := none })]

/-- alice opens a group with bob. -/
def withTeam : List Action :=
  signedIn ++ [.createGroup (utf16 "team") [utf16 "bob"] 1 (utf16 "x")]

def team : Key := .user (newGroupId 1 (utf16 "x"))

/-- A chat of two comes back. -/
theorem chat_with_bob_reloads :
    ∃ p, phone.Reachable p ∧ (getMessages p.store (.user (utf16 "bob"))).length = 2 ∧
      Reloads p.store := by
  have observed : ((phone.run {} withBob).map fun p =>
      ((getMessages p.store (.user (utf16 "bob"))).length, p.store.convs.values.all storable)) =
      some (2, true) := by decide +kernel
  obtain ⟨p, reached, seen⟩ := Machine.reachable_of_observed observed rfl
  obtain ⟨two, all⟩ : _ ∧ _ := by simpa only [Prod.mk.injEq] using seen
  exact ⟨p, reached, two, (reloads_iff_storable reached).mpr (List.all_eq_true.mp all)⟩

/-- A group comes back as a chat with the group's id, and a message in it goes
to nobody. -/
theorem group_reloads_as_chat :
    ∃ p, phone.Reachable p ∧
      (p.store.send p.accountId team (utf16 "hi") 2).2.map (·.recipient) =
        [.string (utf16 "bob")] ∧
      ((reload p.store).send p.accountId team (utf16 "hi") 2).2.map (·.recipient) =
        [team.value] ∧
      ¬ Reloads p.store := by
  have observed : ((phone.run {} withTeam).map fun p =>
      ((p.store.send p.accountId team (utf16 "hi") 2).2.map (·.recipient),
        ((reload p.store).send p.accountId team (utf16 "hi") 2).2.map (·.recipient),
        p.store.convs.values.all storable)) =
      some ([.string (utf16 "bob")], [team.value], false) := by decide +kernel
  obtain ⟨p, reachable, seen⟩ := Machine.reachable_of_observed observed rfl
  obtain ⟨before, after, unfit⟩ : _ ∧ _ ∧ _ := by simpa only [Prod.mk.injEq] using seen
  refine ⟨p, reachable, before, after, fun reloads => ?_⟩
  rw [List.all_eq_true.mpr (storable_of_reloads reloads)] at unfit
  cases unfit

end Hwfa.ConversationReload
