import Mathlib.Data.List.Dedup
import Hwfa.ConversationReload
import Hwfa.StatusStore

/-!
Whom the app's four ways of sending name to the client's `sendText`
(`apps/mobile/src/store/conversations.ts`, `status/post.ts`).

Chats of two and groups share one map, and a group's id is no user's.  `send` and
`sendTyping` go to the members of a group; `sendMedia` goes to the thread's own id, and
`postStatus` to the id of every thread.  `correct_iff_fit` says for each of them which
threads it does right by.
-/

namespace Hwfa.ConversationOutbound

open Hwfa.Json Hwfa.Maps Hwfa.Machines Hwfa.ConversationStore
open Hwfa.ConversationRouting (groupOf isGroup audience recipients)
open Hwfa.ConversationInbound Hwfa.ConversationPhone Hwfa.ConversationReload
open Hwfa.StatusStore (StatusItem addOwn own)

/-! ### Posting a status -/

def buildStatusBody (payload : StatusItem) : Text :=
  buildBody STATUS_PREFIX (.object
    [(utf16 "id", payload.id), (utf16 "text", payload.text), (utf16 "at", payload.at_),
      (utf16 "expiresAt", payload.expiresAt)])

/-- The threads, as they were sorted last. -/
def getConversations (s : Store) : List Conversation := s.listSnapshot.filterMap s.convs.lookup

/-- The status goes out to every thread, unless our own list refuses it; the threads whose
`sendText` resolves are counted. -/
def postStatus (s : Store) (items : List StatusItem) (text : Text) (at_ now : Nat) (random : Text)
    (resolves : Conversation → Bool) : Option (List Outbound × Nat) :=
  (addOwn items text at_ now random).map fun _ =>
    let body := buildStatusBody (own text at_ random)
    let peers := getConversations s
    (peers.map fun p => { recipient := p.peerUserId, body }, (peers.filter resolves).length)

/-! ### Whom an operation names -/

inductive Operation where
  | send (key : Key) (text : Text) (now : Nat)
  /-- `sendMedia`, once the attachment is uploaded -/
  | sendMedia (key : Key) (messageId clientRef : Text) (media : MediaReference)
  | sendTyping (key : Key) (typing : Bool)
  | postStatus (items : List StatusItem) (text : Text) (at_ now : Nat) (random : Text)
    (resolves : Conversation → Bool)

/-- What is passed to `sendText`. -/
def outbounds (p : Phone) : Operation → List Outbound
  | .send key text now => (p.store.send p.accountId key text now).2
  | .sendMedia key messageId clientRef media =>
    (p.store.uploaded key messageId clientRef (some media.value)).2
  | .sendTyping key typing => p.store.sendTyping p.accountId key typing
  | .postStatus items text at_ now random resolves =>
    (postStatus p.store items text at_ now random resolves).elim [] (·.1)

def ids (p : Phone) (operation : Operation) : List Value :=
  (outbounds p operation).map (·.recipient)

/-- The thread that an operation brings content to. -/
def Operation.thread : Operation → Option Key
  | .send key .. | .sendMedia key .. => some key
  | .sendTyping .. | .postStatus .. => none

/-- An id of those that Discovery has given to `users`, and not that of a group. -/
def isUserId (users : Text → Bool) (s : Store) : Value → Bool
  | .string t => users t && ! isGroup s (.user t)
  | _ => false

/-- The users that a status was handed to, each of them once. -/
def reachedUsers (users : Text → Bool) (s : Store) (resolves : Conversation → Bool) : List Value :=
  ((((getConversations s).filter resolves).map (·.peerUserId)).filter (isUserId users s)).dedup

/-- The body is the payload in JSON, behind the marker. -/
def Carries (marker body : Text) (payload : Value) : Prop :=
  ∃ json, stringify payload = some json ∧ body = marker ++ json

/-- The body brings a group what is sent into its thread: the text under the group's id, or
the reference of the attachment. -/
def Operation.Brings (key : Key) (body : Text) : Operation → Prop
  | .send _ text _ => ∃ payload, Carries GROUP_PREFIX body payload ∧
    payload.get "gid" = key.value ∧ payload.get "text" = .string text
  | .sendMedia _ _ _ media => Carries MEDIA_PREFIX body media.value
  | .sendTyping .. | .postStatus .. => False

/-- Every id is a user's, every member of a group but ourselves is sent one thing, which
brings the content, and a status counts the users that it reached. -/
structure Correct (users : Text → Bool) (p : Phone) (operation : Operation) : Prop where
  addressed : ∀ v ∈ ids p operation, isUserId users p.store v
  fanned : ∀ key ∈ operation.thread, ∀ group ∈ groupOf p.store key,
    ∀ v ∈ audience p.accountId group.members,
      ∃ o, (outbounds p operation).filter (·.recipient = v) = [o] ∧ operation.Brings key o.body
  counted : ∀ items text at_ now random resolves,
    operation = .postStatus items text at_ now random resolves →
      ∀ result ∈ postStatus p.store items text at_ now random resolves,
        result.2 = (reachedUsers users p.store resolves).length

/-- The threads an operation can be used on: a text goes where every recipient is a user
and is listed once, an attachment into the chat with a user, a typing signal where every
recipient is a user, and a status needs a list without groups. -/
def Fit (users : Text → Bool) (p : Phone) : Operation → Prop
  | .send key _ _ =>
    (∀ v ∈ recipients p.store p.accountId key, isUserId users p.store v) ∧
      (recipients p.store p.accountId key).Nodup
  | .sendMedia key .. => isUserId users p.store key.value
  | .sendTyping key _ => getMessages p.store key ≠ [] →
    ∀ v ∈ recipients p.store p.accountId key, isUserId users p.store v
  | .postStatus items text at_ now random _ => (addOwn items text at_ now random).isSome →
    ∀ c ∈ getConversations p.store, isUserId users p.store c.peerUserId

variable {users : Text → Bool} {p p' : Phone} {s : Store}

/-! ### The list of threads -/

/-- No thread is listed twice. -/
def Listed (s : Store) : Prop := s.listSnapshot.Nodup

theorem listed_rebuild (s : Store) : Listed s.rebuild := by
  have sorted : (s.convs.entries.mergeSort fun a b => decide (b.2.lastAt ≤ a.2.lastAt)).Perm
      s.convs.entries := List.mergeSort_perm _ _
  have keys : (s.convs.entries.map Sigma.fst).Nodup := s.convs.nodupKeys
  exact (sorted.map Sigma.fst).nodup_iff.mpr keys

section

variable (listed : Listed s)
include listed

theorem listed_patch (key : Key) (id : Text) (fields : ChatMessage → ChatMessage) :
    Listed (s.patch key id fields) := by
  unfold Store.patch
  split
  · split
    · exact listed_rebuild _
    · exact listed
  · exact listed

theorem listed_editMessages (key : Key) (id : Text) (edit : ChatMessage → ChatMessage) :
    Listed (s.editMessages key id edit) := by
  unfold Store.editMessages
  split
  · exact listed_rebuild _
  · exact listed

theorem listed_setPeerIdentity (key : Key) (identity : Text) :
    Listed (s.setPeerIdentity key identity) := by
  unfold Store.setPeerIdentity
  split
  · split
    · exact listed
    · exact listed_rebuild _
  · exact listed

theorem listed_ensurePeer (key : Key) (phone : Option Text) : Listed (s.ensurePeer key phone) := by
  unfold Store.ensurePeer
  dsimp only
  split
  · split
    · exact listed
    · exact listed_rebuild _
  · exact listed

theorem listed_uploaded (key : Key) (id ref : Text) (reply : Option Value) :
    Listed (s.uploaded key id ref reply).1 := by
  unfold Store.uploaded
  split <;> exact listed_patch listed ..

theorem listed_loaded (key : Key) (id : Text) (reply : Option Text) :
    Listed (s.loaded key id reply) := by
  unfold Store.loaded
  split <;> exact listed_patch listed ..

theorem listed_applyStatus (ref : Text) (status : MessageStatus) :
    Listed (s.applyStatus ref status) := by
  unfold Store.applyStatus
  dsimp only
  split
  · split
    · exact listed
    · exact listed_rebuild _
  · exact listed

theorem listed_markRead (key : Key) : Listed (s.markRead key).1 := by
  unfold Store.markRead
  split
  · dsimp only
    split
    · exact listed_rebuild _
    · exact listed
  · exact listed

theorem listed_receive (me : Option Text) (m : Inbound) : Listed (s.receive me m).store := by
  have chat : Listed (s.receiveChat m).store := by
    unfold Store.receiveChat
    dsimp only
    split
    · split
      · exact listed
      · split
        · exact listed_patch (listed_rebuild _) ..
        · exact listed_rebuild _
    · exact listed_rebuild _
  have group : ∀ payload, Listed (s.receiveGroup me m payload).store := by
    intro payload
    unfold Store.receiveGroup
    dsimp only
    split
    · exact listed
    · exact listed_rebuild _
  unfold Store.receive
  dsimp only
  split
  · split <;> exact listed
  · split
    · exact listed
    · split
      · split
        · exact group _
        · exact listed
      · split
        · exact listed
        · exact chat

end

theorem listed_send (s : Store) (me : Option Text) (key : Key) (text : Text) (now : Nat) :
    Listed (s.send me key text now).1 := by
  unfold Store.send
  dsimp only
  split <;> exact listed_rebuild _

theorem listed_mediaUploaded (listed : Listed p.store) (task : Pending Upload)
    (reply : Option MediaReference) : Listed (p.mediaUploaded task reply).store := by
  have uploaded := listed_uploaded listed task.work.peerUserId task.work.messageId
    task.work.clientRef (reply.map (·.value))
  unfold Phone.mediaUploaded
  dsimp only
  split
  · exact listed_patch uploaded ..
  · rwa [Phone.sendTexts_store]

theorem step_listed {action : Action} (listed : Listed p.store)
    (moved : p.step action = some p') : Listed p'.store := by
  cases action with
  | hydrated former read =>
    obtain ⟨task, -, -, rfl⟩ := step_hydrated moved
    dsimp only
    cases (if read then task.work else none) with
    | none => exact listed
    | some data => exact listed_rebuild _
  | kill =>
    cases moved
    exact List.nodup_nil
  | reset written =>
    cases moved
    exact listed_rebuild _
  | decrypted task outcome =>
    obtain ⟨-, same⟩ := Option.ite_none_right_eq_some.mp moved
    cases same
    cases outcome with
    | none => exact listed
    | some o =>
      dsimp only [Option.elim_some]
      rw [Phone.received_store]
      split
      · exact listed_receive listed ..
      · exact listed
  | transmit task =>
    obtain ⟨-, same⟩ := Option.ite_none_right_eq_some.mp moved
    cases same
    rwa [Phone.handOver_store]
  | ensurePeer key phone =>
    obtain ⟨-, same⟩ := Option.ite_none_right_eq_some.mp moved
    cases same
    exact listed_ensurePeer listed ..
  | send key text now =>
    obtain ⟨-, same⟩ := Option.ite_none_right_eq_some.mp moved
    cases same
    rw [Phone.sendTexts_store]
    exact listed_send ..
  | sendMedia key media now =>
    obtain ⟨-, same⟩ := Option.ite_none_right_eq_some.mp moved
    cases same
    exact listed_rebuild _
  | uploaded task reply =>
    obtain ⟨-, same⟩ := Option.ite_none_right_eq_some.mp moved
    cases same
    have erased : Listed { p with uploads := p.uploads.erase task }.store := listed
    exact listed_mediaUploaded erased ..
  | downloaded task reply =>
    obtain ⟨-, same⟩ := Option.ite_none_right_eq_some.mp moved
    cases same
    exact listed_loaded listed ..
  | mediaSaved task written =>
    obtain ⟨-, same⟩ := Option.ite_none_right_eq_some.mp moved
    cases same
    cases written with
    | false => exact listed
    | true => exact listed_patch listed ..
  | createGroup name members now random =>
    cases moved
    exact listed_rebuild _
  | sendTyping key typing =>
    cases moved
    rwa [Phone.sendTexts_store]
  | setPeerIdentity key identity =>
    cases moved
    exact listed_setPeerIdentity listed ..
  | loadMedia key id =>
    cases moved
    exact listed_patch listed ..
  | applyStatus ref status =>
    cases moved
    exact listed_applyStatus listed ..
  | markRead key =>
    cases moved
    rw [Phone.handOver_store]
    exact listed_markRead listed ..
  | toggleStar key id | dismissScamWarning key id =>
    cases moved
    exact listed_editMessages listed ..
  | start =>
    obtain ⟨-, same⟩ := Option.ite_none_left_eq_some.mp moved
    cases same
    exact listed
  | sendEnded task =>
    obtain ⟨-, same⟩ := Option.ite_none_right_eq_some.mp moved
    cases same
    exact listed
  | save written =>
    cases moved
    cases written <;> exact listed
  | signIn | connect | disconnect | close | deliver | saveMedia =>
    cases moved
    exact listed

theorem listed_of_reachable (reached : phone.Reachable p) : Listed p.store :=
  reached.invariant (fun p => Listed p.store) (fun s started => by subst started; exact List.nodup_nil)
    fun _ _ _ listed _ moved => step_listed listed moved

/-! ### What is passed on -/

theorem ids_send (p : Phone) (key : Key) (text : Text) (now : Nat) :
    ids p (.send key text now) = recipients p.store p.accountId key :=
  ConversationRouting.encryptsTo_eq p.store p.accountId key text now

theorem count_ids (p : Phone) (operation : Operation) (v : Value) :
    (ids p operation).count v = ((outbounds p operation).filter (·.recipient = v)).length := by
  rw [ids, List.count, List.countP_map, List.countP_eq_length_filter]
  congr 1

theorem carries_object (marker : Text) (members : List (Text × Value)) :
    Carries marker (buildBody marker (.object members)) (.object members) :=
  ⟨_, rfl, rfl⟩

/-- A text into a group goes out to its members in one and the same body. -/
theorem outbounds_group (keyed : Keyed p.store) {key : Key} {group : GroupInfo}
    (found : groupOf p.store key = some group) (text : Text) (now : Nat) :
    ∃ body, (Operation.send key text now).Brings key body ∧
      outbounds p (.send key text now) =
        (audience p.accountId group.members).map fun m => { recipient := m, body } := by
  have grouped : (p.store.ensure key).group = some group := by
    rw [← found]
    exact ConversationRouting.ensure_group ..
  refine ⟨buildGroupBody
    { gid := (p.store.ensure key).peerUserId, name := group.name
      members := Store.wireMembers p.accountId group.members, text := .string text }, ?_, ?_⟩
  · exact ⟨_, carries_object .., keyed.peers key, rfl⟩
  · unfold outbounds Store.send
    dsimp only
    rw [grouped]
    rfl

theorem ids_sendMedia (p : Phone) (key : Key) (messageId ref : Text) (media : MediaReference) :
    ids p (.sendMedia key messageId ref media) = [key.value] := rfl

theorem ids_sendTyping (p : Phone) (key : Key) (typing : Bool) :
    ids p (.sendTyping key typing) =
      if getMessages p.store key = [] then [] else recipients p.store p.accountId key := by
  unfold ids outbounds Store.sendTyping
  dsimp only
  cases found : p.store.convs.lookup key with
  | none =>
    have silent : getMessages p.store key = [] := by rw [getMessages, found, Option.elim_none]
    rw [if_pos silent]
    rfl
  | some conv =>
    have same : getMessages p.store key = conv.messages := by
      rw [getMessages, found, Option.elim_some]
    have group : groupOf p.store key = conv.group := by rw [groupOf, found, Option.bind_some]
    dsimp only
    rw [same, recipients, group]
    by_cases silent : conv.messages = []
    · rw [if_pos silent, if_pos silent]
      rfl
    · rw [if_neg silent, if_neg silent]
      cases conv.group with
      | none => rfl
      | some group => simp [audience, Function.comp_def]

theorem ids_postStatus (p : Phone) (items : List StatusItem) (text : Text) (at_ now : Nat)
    (random : Text) (resolves : Conversation → Bool) :
    ids p (.postStatus items text at_ now random resolves) =
      if (addOwn items text at_ now random).isSome then
        (getConversations p.store).map (·.peerUserId)
      else [] := by
  unfold ids outbounds postStatus
  dsimp only
  cases addOwn items text at_ now random with
  | none => rfl
  | some own => simp [Function.comp_def]

/-! ### The users that a status reaches -/

/-- A thread with a text for an id is the thread of that user. -/
theorem key_of_string (keyed : Keyed s) {key : Key} {t : Text}
    (there : (s.convs.lookup key).isSome) (value : key.value = .string t) : key = .user t := by
  cases key with
  | primitive q => exact congrArg Key.primitive (Value.primitive.inj value)
  | object reference v =>
    obtain rfl : v = .string t := value
    exact absurd rfl (keyed.proper _ there reference (.string t))

theorem string_of_user {v : Value} (user : isUserId users s v) :
    ∃ t, v = .string t ∧ isGroup s (.user t) = false := by
  unfold isUserId at user
  split at user
  · next t => exact ⟨t, rfl, by simpa using ((Bool.and_eq_true _ _).mp user).2⟩
  · cases user

/-- The thread of a user is no group. -/
theorem groupOf_of_user (keyed : Keyed s) {key : Key} (user : isUserId users s key.value) :
    groupOf s key = none := by
  obtain ⟨t, value, single⟩ := string_of_user user
  cases found : s.convs.lookup key with
  | none => rw [groupOf, found, Option.bind_none]
  | some conv =>
    rw [key_of_string keyed (by rw [found]; rfl) value]
    exact Option.isNone_iff_eq_none.mp (Option.isSome_eq_false_iff.mp single)

theorem peer_of_lookup (keyed : Keyed s) {key : Key} {c : Conversation}
    (found : s.convs.lookup key = some c) : c.peerUserId = key.value := by
  have peer := keyed.peers key
  rwa [Store.ensure, found, Option.getD_some] at peer

/-- No two threads that are listed are of one user. -/
theorem getConversations_apart (keyed : Keyed s) (listed : Listed s) :
    (getConversations s).Pairwise fun c c' =>
      isUserId users s c.peerUserId → c.peerUserId ≠ c'.peerUserId := by
  refine List.pairwise_filterMap.mpr (listed.imp ?_)
  intro key key' apart c found c' found' user same
  have peer := peer_of_lookup keyed found
  obtain ⟨t, value, -⟩ := string_of_user user
  have this_one : key = .user t :=
    key_of_string keyed (by rw [found]; rfl) (peer.symm.trans value)
  have that_one : key' = .user t := key_of_string keyed (by rw [found']; rfl)
    ((peer_of_lookup keyed found').symm.trans (same.symm.trans value))
  exact apart (this_one.trans that_one.symm)

/-- Where every thread is of a user, a status reaches as many users as threads. -/
theorem reachedUsers_length (keyed : Keyed s) (listed : Listed s) (resolves : Conversation → Bool)
    (all : ∀ c ∈ getConversations s, isUserId users s c.peerUserId) :
    (reachedUsers users s resolves).length = ((getConversations s).filter resolves).length := by
  have user : ∀ v ∈ ((getConversations s).filter resolves).map (·.peerUserId),
      isUserId users s v := by
    intro v inside
    obtain ⟨c, member, rfl⟩ := List.mem_map.mp inside
    exact all c (List.mem_of_mem_filter member)
  have distinct : (((getConversations s).filter resolves).map (·.peerUserId)).Nodup := by
    have apart : ((getConversations s).filter resolves).Pairwise fun c c' =>
        isUserId users s c.peerUserId → c.peerUserId ≠ c'.peerUserId :=
      (getConversations_apart keyed listed).filter resolves
    refine List.pairwise_map.mpr (apart.imp_of_mem ?_)
    intro c c' inside _ apart
    exact apart (all c (List.mem_of_mem_filter inside))
  unfold reachedUsers
  rw [List.filter_eq_self.mpr user, List.dedup_eq_self.mpr distinct, List.length_map]

/-! ### Every operation -/

theorem correct_send (keyed : Keyed p.store) (key : Key) (text : Text) (now : Nat) :
    Correct users p (.send key text now) ↔ Fit users p (.send key text now) := by
  constructor
  · intro correct
    have addressed := correct.addressed
    rw [ids_send] at addressed
    refine ⟨addressed, ?_⟩
    cases found : groupOf p.store key with
    | none =>
      rw [recipients, found]
      exact List.nodup_singleton _
    | some group =>
      have audience_eq : recipients p.store p.accountId key = audience p.accountId group.members := by
        rw [recipients, found, Option.elim_some]
      refine List.nodup_iff_count_eq_one.mpr fun v member => ?_
      obtain ⟨o, only, -⟩ := correct.fanned key rfl group found v (audience_eq ▸ member)
      rw [← ids_send p key text now, count_ids, only, List.length_singleton]
  · rintro ⟨addressed, distinct⟩
    refine ⟨by rwa [ids_send], fun key' same group found v member => ?_,
      fun items text at_ now random resolves same => by cases same⟩
    cases same
    have grouped : groupOf p.store key = some group := found
    rw [recipients, grouped, Option.elim_some] at distinct
    obtain ⟨body, brings, passed⟩ := outbounds_group keyed grouped text now
    refine ⟨{ recipient := v, body }, ?_, brings⟩
    rw [passed, List.filter_map]
    have this_one : (audience p.accountId group.members).filter (· = v) = [v] := by
      rw [List.filter_eq, List.count_eq_one_of_mem distinct member, List.replicate_one]
    exact congrArg (List.map _) this_one

theorem correct_sendMedia (keyed : Keyed p.store) (key : Key) (messageId ref : Text)
    (media : MediaReference) : Correct users p (.sendMedia key messageId ref media) ↔
      Fit users p (.sendMedia key messageId ref media) := by
  constructor
  · exact fun correct => correct.addressed key.value (by simp [ids_sendMedia])
  · intro user
    refine ⟨fun v inside => ?_, fun key' same group found => ?_,
      fun items text at_ now random resolves same => by cases same⟩
    · obtain rfl := List.mem_singleton.mp inside
      exact user
    · cases same
      cases (groupOf_of_user keyed user).symm.trans found

theorem correct_sendTyping (p : Phone) (key : Key) (typing : Bool) :
    Correct users p (.sendTyping key typing) ↔ Fit users p (.sendTyping key typing) := by
  constructor
  · intro correct talking
    have addressed := correct.addressed
    rwa [ids_sendTyping, if_neg talking] at addressed
  · intro fit
    refine ⟨?_, fun key' same => (by cases same),
      fun items text at_ now random resolves same => by cases same⟩
    rw [ids_sendTyping]
    split
    · exact fun v inside => by cases inside
    · next talking => exact fit talking

theorem correct_postStatus (keyed : Keyed p.store) (listed : Listed p.store)
    (items : List StatusItem) (text : Text) (at_ now : Nat) (random : Text)
    (resolves : Conversation → Bool) :
    Correct users p (.postStatus items text at_ now random resolves) ↔
      Fit users p (.postStatus items text at_ now random resolves) := by
  constructor
  · intro correct accepted c listed
    refine correct.addressed c.peerUserId ?_
    rw [ids_postStatus, if_pos accepted]
    exact List.mem_map_of_mem listed
  · intro fit
    refine ⟨?_, fun key same => (by cases same), ?_⟩
    · rw [ids_postStatus]
      split
      · next accepted =>
        intro v inside
        obtain ⟨c, listed, rfl⟩ := List.mem_map.mp inside
        exact fit accepted c listed
      · exact fun v inside => by cases inside
    · intro items' text' at' now' random' resolves' same result posted
      cases same
      obtain ⟨mine, accepted, rfl⟩ := Option.map_eq_some_iff.mp posted
      exact (reachedUsers_length keyed listed resolves (fit (by rw [accepted]; rfl))).symm

/-- **Whom the app sends to.** In every state of the app, whoever has the ids that
Discovery gave out: an operation names user ids only, sends each member of a group one body
with the text or the reference in it and counts the users it reached, exactly if the
thread, or the list of threads, is fit for it. -/
theorem correct_iff_fit (reached : phone.Reachable p) (users : Text → Bool)
    (operation : Operation) : Correct users p operation ↔ Fit users p operation := by
  cases operation with
  | send key text now => exact correct_send (keyed_of_reachable reached) ..
  | sendMedia key messageId ref media => exact correct_sendMedia (keyed_of_reachable reached) ..
  | sendTyping key typing => exact correct_sendTyping ..
  | postStatus items text at_ now random resolves =>
    exact correct_postStatus (keyed_of_reachable reached) (listed_of_reachable reached) ..

/-! ### A group with bob -/

theorem lookup_createGroup (s : Store) (gid name : Text) (members : List Text) (now : Nat) :
    (s.createGroup gid name members now).convs.lookup (.user gid) =
      some { s.ensure (.user gid) with
        group := some { name := .string name, members := .array (members.map .string) }
        lastAt := now } := by
  unfold Store.createGroup Store.rebuild Store.set
  exact (FinMap.lookup_put_apply ..).trans (if_pos rfl)

/-- A thread that is there when the list is sorted is listed. -/
theorem mem_rebuild {key : Key} (there : (s.convs.lookup key).isSome) :
    key ∈ s.rebuild.listSnapshot := by
  obtain ⟨c, found⟩ := Option.isSome_iff_exists.mp there
  exact List.mem_map.mpr ⟨⟨key, c⟩, List.mem_mergeSort.mpr (AList.mem_lookup_iff.mp found), rfl⟩

/-- A group is listed as soon as it is there. -/
theorem created_listed (s : Store) (gid name : Text) (members : List Text) (now : Nat) :
    ∃ c ∈ getConversations (s.createGroup gid name members now),
      (s.createGroup gid name members now).convs.lookup (.user gid) = some c := by
  have found := lookup_createGroup s gid name members now
  refine ⟨_, List.mem_filterMap.mpr ⟨.user gid, ?_, found⟩, found⟩
  have there := congrArg Option.isSome found
  exact mem_rebuild there

def bobOnly (t : Text) : Bool := t = utf16 "bob"

def bobAndCarol (t : Text) : Bool := t = utf16 "bob" || t = utf16 "carol"

/-- alice opens a group with bob and carol. -/
def withThree : List Action :=
  signedIn ++ [.createGroup (utf16 "team") [utf16 "bob", utf16 "carol"] 1 (utf16 "x")]

theorem text_to_team_is_correct : ∃ p, phone.Reachable p ∧
    (groupOf p.store team).map (fun group => audience p.accountId group.members) =
      some [.string (utf16 "bob"), .string (utf16 "carol")] ∧
    Correct bobAndCarol p (.send team (utf16 "hi") 2) := by
  have observed : ((phone.run {} withThree).map fun p =>
      ((groupOf p.store team).map fun group => audience p.accountId group.members,
        recipients p.store p.accountId team,
        [utf16 "bob", utf16 "carol"].all fun t => isUserId bobAndCarol p.store (.string t))) =
      some (some [.string (utf16 "bob"), .string (utf16 "carol")],
        [.string (utf16 "bob"), .string (utf16 "carol")], true) := by decide +kernel
  obtain ⟨p, reached, seen⟩ := Machine.reachable_of_observed observed rfl
  obtain ⟨group, members, users⟩ : _ ∧ _ ∧ _ := by simpa only [Prod.mk.injEq] using seen
  refine ⟨p, reached, group, (correct_iff_fit reached bobAndCarol _).mpr ⟨?_, ?_⟩⟩
  · rw [members]
    intro v inside
    rcases List.mem_pair.mp inside with rfl | rfl
    · exact List.all_eq_true.mp users _ (List.mem_cons_self ..)
    · exact List.all_eq_true.mp users _ (List.mem_cons_of_mem _ (List.mem_cons_self ..))
  · rw [members]
    decide

def photo : MediaReference where
  keyB64 := utf16 "a2V5"
  ivB64 := utf16 "aXY="
  mime := utf16 "image/png"
  size := 1
  sha256B64 := utf16 "c2hh"
  name := none
  locator := utf16 "m1"

theorem photo_for_team_goes_to_no_member : ∃ p, phone.Reachable p ∧
    groupOf p.store team =
      some { name := .string (utf16 "team"), members := .array [.string (utf16 "bob")] } ∧
    ids p (.sendMedia team (utf16 "m0") (utf16 "c1") photo) = [team.value] ∧
    ¬ Correct bobOnly p (.sendMedia team (utf16 "m0") (utf16 "c1") photo) ∧
    ¬ Correct bobOnly p (.postStatus [] (utf16 "news") 2 2 (utf16 "x") fun _ => true) := by
  have opened : (phone.run {} signedIn).isSome := by decide +kernel
  obtain ⟨q, ran⟩ := Option.isSome_iff_exists.mp opened
  obtain ⟨p, moved, stored⟩ : ∃ p,
      phone.step q (.createGroup (utf16 "team") [utf16 "bob"] 1 (utf16 "x")) = some p ∧
        p.store = q.store.createGroup (newGroupId 1 (utf16 "x")) (utf16 "team") [utf16 "bob"] 1 :=
    ⟨_, rfl, rfl⟩
  have reached := Machine.Reached.step (Machine.reachable_of_run rfl signedIn ran) trivial moved
  have group : groupOf p.store team =
      some { name := .string (utf16 "team"), members := .array [.string (utf16 "bob")] } := by
    rw [stored]
    exact (ConversationRouting.groupOf_of_lookup (lookup_createGroup ..)).symm
  have nobody : ¬ isUserId bobOnly p.store team.value := by
    intro user
    cases (groupOf_of_user (keyed_of_reachable reached) user).symm.trans group
  refine ⟨p, reached, group, rfl, fun correct => ?_, fun correct => ?_⟩
  · exact nobody (correct.addressed team.value (by simp [ids_sendMedia]))
  · obtain ⟨c, listed, found⟩ :=
      created_listed q.store (newGroupId 1 (utf16 "x")) (utf16 "team") [utf16 "bob"] 1
    rw [← stored] at listed found
    have accepted : (addOwn [] (utf16 "news") 2 2 (utf16 "x")).isSome := by decide +kernel
    have user := correct.addressed c.peerUserId (by
      rw [ids_postStatus, if_pos accepted]
      exact List.mem_map_of_mem listed)
    rw [peer_of_lookup (keyed_of_reachable reached) found] at user
    exact nobody user

end Hwfa.ConversationOutbound
