import Hwfa.ConversationStore
import Hwfa.Machines

/-!
Whom a conversation's messages are encrypted to, and what can change that.

A thread sends to its peer, or to the members of its group other than ourselves.
Nothing the app does with a thread changes that, apart from creating a group.
What arrives can: a group body is applied to the thread that its `gid` names,
whatever that thread is and whoever sent it.  So a thread keeps its recipients
exactly when no inbound group body names it with a roster other than the users
it sends to.
-/

namespace Hwfa.ConversationRouting

open Hwfa.Json Hwfa.Maps Hwfa.Machines Hwfa.ConversationStore

/-! ### The app -/

structure App where
  store : Store := {}
  me : Option Text := none
  /-- `sendMedia`s that wait for their upload: thread, message, reference -/
  uploads : List (Key × Text × Text) := []
  /-- `loadMedia`s that wait for their download -/
  downloads : List (Key × Text) := []

inductive Action where
  /-- sign in, or sign out -/
  | account (me : Option Text)
  | receive (m : Inbound)
  | hydrate (data : PersistedState)
  | reset
  | setPeerIdentity (peerUserId : Key) (identityB64 : Text)
  | ensurePeer (peerUserId : Key) (peerPhone : Option Text)
  | send (peerUserId : Key) (text : Text) (now : Nat)
  | createGroup (name : Text) (members : List Text) (now : Nat) (random : Text)
  | sendMedia (peerUserId : Key) (media : MediaPlaintext) (now : Nat)
  | uploaded (task : Nat) (reply : Option Value)
  | loadMedia (peerUserId : Key) (messageId : Text)
  | loaded (task : Nat) (reply : Option Text)
  | mediaSaved (peerUserId : Key) (messageId : Text)
  | applyStatus (clientRef : Text) (status : MessageStatus)
  | markRead (peerUserId : Key)
  | toggleStar (peerUserId : Key) (messageId : Text)
  | dismissScamWarning (peerUserId : Key) (messageId : Text)

/-- What `receive` starts to download. -/
def started : Option Handoff → List (Key × Text)
  | some (.download key messageId _) => [(key, messageId)]
  | _ => []

def App.step (a : App) : Action → Option App
  | .account me => some { a with me }
  | .receive m =>
    let r := a.store.receive a.me m
    some { a with store := r.store, downloads := a.downloads ++ started r.handoff }
  | .hydrate data => some { a with store := a.store.hydrate data }
  | .reset => some { a with store := a.store.reset }
  | .setPeerIdentity key identity => some { a with store := a.store.setPeerIdentity key identity }
  | .ensurePeer key phone => some { a with store := a.store.ensurePeer key phone }
  | .send key text now => some { a with store := (a.store.send a.me key text now).1 }
  | .createGroup name members now random =>
    some { a with store := a.store.createGroup (newGroupId now random) name members now }
  | .sendMedia key media now =>
    let (store, task) := a.store.sendMedia key media now
    some { a with store, uploads := a.uploads ++ [(key, task)] }
  | .uploaded task reply => a.uploads[task]?.map fun upload =>
    { a with
      store := (a.store.uploaded upload.1 upload.2.1 upload.2.2 reply).1
      uploads := a.uploads.eraseIdx task }
  | .loadMedia key messageId =>
    some { a with
      store := a.store.loadMedia key messageId
      downloads := a.downloads ++ [(key, messageId)] }
  | .loaded task reply => a.downloads[task]?.map fun download =>
    { a with
      store := a.store.loaded download.1 download.2 reply
      downloads := a.downloads.eraseIdx task }
  | .mediaSaved key messageId => some { a with store := a.store.mediaSaved key messageId }
  | .applyStatus ref status => some { a with store := a.store.applyStatus ref status }
  | .markRead key => some { a with store := (a.store.markRead key).1 }
  | .toggleStar key messageId => some { a with store := a.store.toggleStar key messageId }
  | .dismissScamWarning key messageId =>
    some { a with store := a.store.dismissScamWarning key messageId }

def app : Machine App Action where
  start := fun a => a = {}
  step := App.step

/-! ### Whom a thread sends to -/

/-- The group that a thread is, if it is one. -/
def groupOf (s : Store) (key : Key) : Option GroupInfo := (s.convs.lookup key).bind (·.group)

def isGroup (s : Store) (key : Key) : Bool := (groupOf s key).isSome

/-- The members of a roster other than ourselves, none if it cannot be read. -/
def audience (me : Option Text) (members : Value) : List Value := (Store.others me members).getD []

def recipients (s : Store) (me : Option Text) (key : Key) : List Value :=
  (groupOf s key).elim [key.value] fun group => audience me group.members

/-- A current member of a group. -/
def isMember (s : Store) (key : Key) (userId : Text) : Bool :=
  match groupOf s key with
  | some ⟨_, .array members⟩ => .string userId ∈ members
  | _ => false

/-- The same set of users. -/
def SameUsers (us vs : List Value) : Prop := (∀ u ∈ us, u ∈ vs) ∧ ∀ v ∈ vs, v ∈ us

instance (us vs : List Value) : Decidable (SameUsers us vs) :=
  inferInstanceAs (Decidable ((∀ u ∈ us, u ∈ vs) ∧ ∀ v ∈ vs, v ∈ us))

/-- Whom `send` encrypts to. -/
def encryptsTo (s : Store) (me : Option Text) (key : Key) (text : Text) (now : Nat) : List Value :=
  (s.send me key text now).2.map (·.recipient)

/-- A later state of a thread: it sends to the same users, and is no group if it
was none. -/
structure SameThread (key : Key) (a b : App) : Prop where
  users : ∀ text now, SameUsers (encryptsTo b.store b.me key text now)
    (encryptsTo a.store a.me key text now)
  direct : isGroup b.store key → isGroup a.store key

def App.received (a : App) (m : Inbound) : App :=
  { a with store := (a.store.receive a.me m).store }

/-- An inbound message leaves a thread what it is, unless it comes from a member
of the thread's group. -/
def Kept (a : App) (m : Inbound) (key : Key) : Prop :=
  isMember a.store key m.fromUserId ∨ SameThread key a (a.received m)

/-- A group body that names the thread, with a roster that is read, where the
thread is no group or does not send to the same users. -/
def Redirects (a : App) (m : Inbound) (key : Key) : Prop :=
  let payload := parseGroupBody m.text
  let roster := payload.get "members"
  isGroupBody m.text ∧ payload.truthy ∧ a.store.keyOf (payload.get "gid") = key ∧
    ((accountId a.me).truthy → (Store.others a.me roster).isSome) ∧
    (isGroup a.store key → ¬ SameUsers (audience a.me roster) (recipients a.store a.me key))

instance (a : App) (m : Inbound) (key : Key) : Decidable (Redirects a m key) := by
  unfold Redirects
  infer_instance

theorem SameUsers.refl (us : List Value) : SameUsers us us :=
  ⟨fun _ inside => inside, fun _ inside => inside⟩

theorem SameUsers.trans {us vs ws : List Value} (first : SameUsers us vs)
    (second : SameUsers vs ws) : SameUsers us ws :=
  ⟨fun u inside => second.1 u (first.1 u inside), fun w inside => first.2 w (second.2 w inside)⟩

theorem SameThread.refl (key : Key) (a : App) : SameThread key a a :=
  ⟨fun _ _ => .refl _, fun group => group⟩

theorem SameThread.trans {key : Key} {a b c : App} (first : SameThread key a b)
    (second : SameThread key b c) : SameThread key a c :=
  ⟨fun text now => (second.users text now).trans (first.users text now),
    fun group => first.direct (second.direct group)⟩

/-- What can happen around a thread when no inbound message redirects it, and
neither our account nor the thread is replaced by ourselves. -/
def Unprovoked (key : Key) (a : App) : Action → Prop
  | .receive m => ¬ Redirects a m key
  | .createGroup _ _ now random => Key.user (newGroupId now random) ≠ key
  | .account _ | .reset => False
  | _ => True

instance (key : Key) (a : App) (action : Action) : Decidable (Unprovoked key a action) := by
  cases action <;> unfold Unprovoked <;> infer_instance

/-! ### What changes a thread's group -/

theorem ensure_group (s : Store) (key : Key) : (s.ensure key).group = groupOf s key := by
  unfold Store.ensure groupOf
  cases s.convs.lookup key <;> rfl

/-- What `send` does with a thread, in terms of what the thread is. -/
theorem encryptsTo_eq (s : Store) (me : Option Text) (key : Key) (text : Text) (now : Nat) :
    encryptsTo s me key text now = recipients s me key := by
  unfold encryptsTo recipients Store.send
  rw [← ensure_group]
  dsimp only
  split
  · next group found => simp [found, Store.sendGroup, audience, Function.comp_def]
  · next found => simp [found]

theorem groupOf_set (s : Store) (key key' : Key) (conv : Conversation) :
    groupOf (s.set key conv) key' = if key' = key then conv.group else groupOf s key' := by
  unfold groupOf Store.set
  rw [FinMap.lookup_put_apply]
  split <;> rfl

/-- Storing a conversation back with the group it had changes no thread's group. -/
theorem groupOf_set_same {s : Store} {key : Key} {conv : Conversation}
    (same : conv.group = groupOf s key) : groupOf (s.set key conv) = groupOf s := by
  funext key'
  rw [groupOf_set]
  split
  · next here => rw [same, here]
  · rfl

theorem groupOf_of_lookup {s : Store} {key : Key} {conv : Conversation}
    (found : s.convs.lookup key = some conv) : conv.group = groupOf s key := by
  rw [groupOf, found, Option.bind_some]

theorem groupOf_patch (s : Store) (key : Key) (messageId : Text)
    (fields : ChatMessage → ChatMessage) : groupOf (s.patch key messageId fields) = groupOf s := by
  unfold Store.patch
  split
  · next conv found =>
    have kept := groupOf_of_lookup found
    split
    · exact groupOf_set_same (s := s) kept
    · rfl
  · rfl

theorem groupOf_editMessages (s : Store) (key : Key) (messageId : Text)
    (edit : ChatMessage → ChatMessage) :
    groupOf (s.editMessages key messageId edit) = groupOf s := by
  unfold Store.editMessages
  split
  · next conv found =>
    have kept := groupOf_of_lookup found
    exact groupOf_set_same (s := s) kept
  · rfl

theorem groupOf_setPeerIdentity (s : Store) (key : Key) (identity : Text) :
    groupOf (s.setPeerIdentity key identity) = groupOf s := by
  unfold Store.setPeerIdentity
  split
  · next conv found =>
    have kept := groupOf_of_lookup found
    split
    · rfl
    · exact groupOf_set_same (s := s) kept
  · rfl

theorem groupOf_ensurePeer (s : Store) (key : Key) (phone : Option Text) :
    groupOf (s.ensurePeer key phone) = groupOf s := by
  have kept := ensure_group s key
  unfold Store.ensurePeer
  dsimp only
  split
  · split
    · exact groupOf_set_same kept
    · exact groupOf_set_same (s := s) kept
  · exact groupOf_set_same kept

theorem groupOf_send (s : Store) (me : Option Text) (key : Key) (text : Text) (now : Nat) :
    groupOf (s.send me key text now).1 = groupOf s := by
  have kept := ensure_group s key
  unfold Store.send
  dsimp only
  split
  · exact groupOf_set_same (s := { s with counter := s.counter + 1 }) kept
  · exact groupOf_set_same (s := { s with counter := s.counter + 1 }) kept

theorem groupOf_sendMedia (s : Store) (key : Key) (media : MediaPlaintext) (now : Nat) :
    groupOf (s.sendMedia key media now).1 = groupOf s :=
  groupOf_set_same (s := { s with counter := s.counter + 1 }) (ensure_group s key)

theorem groupOf_uploaded (s : Store) (key : Key) (messageId ref : Text) (reply : Option Value) :
    groupOf (s.uploaded key messageId ref reply).1 = groupOf s := by
  cases reply with
  | none => exact groupOf_patch ..
  | some media => exact groupOf_patch ..

theorem groupOf_loaded (s : Store) (key : Key) (messageId : Text) (reply : Option Text) :
    groupOf (s.loaded key messageId reply) = groupOf s := by
  cases reply with
  | none => exact groupOf_patch ..
  | some uri => exact groupOf_patch ..

theorem groupOf_applyStatus (s : Store) (ref : Text) (status : MessageStatus) :
    groupOf (s.applyStatus ref status) = groupOf s := by
  unfold Store.applyStatus
  dsimp only
  split
  · next key conv found =>
    have kept := groupOf_of_lookup (AList.mem_lookup_iff.mpr (List.mem_of_find?_eq_some found))
    split
    · rfl
    · exact groupOf_set_same (s := s) kept
  · rfl

theorem groupOf_markRead (s : Store) (key : Key) : groupOf (s.markRead key).1 = groupOf s := by
  unfold Store.markRead
  split
  · next conv found =>
    have kept := groupOf_of_lookup found
    dsimp only
    split
    · exact groupOf_set_same (s := s) kept
    · exact groupOf_set_same kept
  · rfl

theorem groupOf_hydrateOne (s : Store) (c : Conversation) :
    groupOf (s.hydrateOne c) = groupOf s := by
  unfold Store.hydrateOne
  dsimp only
  split
  · next existing found =>
    have kept := groupOf_of_lookup (s := s) found
    exact groupOf_set_same (s := { s with references := s.references + 1 }) kept
  · next absent =>
    have nothing : s.convs.lookup (s.keyOf c.peerUserId) = none := absent
    have kept : none = groupOf s (s.keyOf c.peerUserId) := by rw [groupOf, nothing, Option.bind_none]
    exact groupOf_set_same (s := { s with references := s.references + 1 }) kept

/-- A saved conversation comes back without its group, and leaves those alone
that are there. -/
theorem groupOf_hydrate (s : Store) (data : PersistedState) :
    groupOf (s.hydrate data) = groupOf s :=
  hydrate_invariant (groupOf · = groupOf s) rfl
    (fun t c _ same => (groupOf_hydrateOne t c).trans same) fun _ same => same

theorem groupOf_receiveChat (s : Store) (m : Inbound) :
    groupOf (s.receiveChat m).store = groupOf s := by
  have kept := ensure_group s (.user m.fromUserId)
  unfold Store.receiveChat
  dsimp only
  split
  · split
    · exact groupOf_set_same kept
    · split
      · exact (groupOf_patch ..).trans (groupOf_set_same (s := { s with counter := s.counter + 1 }) kept)
      · exact groupOf_set_same (s := { s with counter := s.counter + 1 }) kept
  · exact groupOf_set_same (s := { s with counter := s.counter + 1 }) kept

/-- A text has one marker only. -/
theorem not_marked {marker other body : Text} (marked : hasMarker other body)
    (apart : ¬ marker <+: other) (apart' : ¬ other <+: marker) : hasMarker marker body = false := by
  rw [hasMarker, Bool.eq_false_iff, ne_eq, List.isPrefixOf_iff_prefix]
  intro also
  rcases List.prefix_or_prefix_of_prefix also (List.isPrefixOf_iff_prefix.mp marked) with h | h
  · exact apart h
  · exact apart' h

theorem not_typing_of_group {body : Text} (grouped : isGroupBody body) :
    isTypingBody body = false :=
  not_marked grouped (by decide +kernel) (by decide +kernel)

theorem not_call_of_group {body : Text} (grouped : isGroupBody body) : isCallBody body = false :=
  not_marked grouped (by decide +kernel) (by decide +kernel)

/-- Only a group body changes what a thread is. -/
theorem groupOf_receive_other (s : Store) (me : Option Text) {m : Inbound}
    (other : ¬ (isGroupBody m.text ∧ (parseGroupBody m.text).truthy)) :
    groupOf (s.receive me m).store = groupOf s := by
  unfold Store.receive
  dsimp only
  split
  · split <;> rfl
  · split
    · rfl
    · split
      · next grouped =>
        rw [if_neg fun payload => other ⟨grouped, payload⟩]
      · split
        · rfl
        · exact groupOf_receiveChat s m

theorem receive_group (s : Store) (me : Option Text) {m : Inbound} (grouped : isGroupBody m.text)
    (payload : (parseGroupBody m.text).truthy) :
    s.receive me m = s.receiveGroup me m (parseGroupBody m.text) := by
  simp [Store.receive, not_typing_of_group grouped, not_call_of_group grouped, grouped, payload]

/-- What a group body makes of the thread that it names. -/
theorem groupOf_receiveGroup (s : Store) (me : Option Text) (m : Inbound) (payload : Value)
    (key : Key) :
    groupOf (s.receiveGroup me m payload).store key =
      match Store.roster me (payload.get "members") with
      | some members =>
        if key = s.keyOf (payload.get "gid") then some ⟨payload.get "name", members⟩
        else groupOf s key
      | none => groupOf s key := by
  unfold Store.receiveGroup
  dsimp only
  cases Store.roster me (payload.get "members") with
  | none =>
    have kept := ensure_group s (s.keyOf (payload.get "gid"))
    exact congrFun (groupOf_set_same (s := { s with references := s.references + 1 }) kept) key
  | some members => exact groupOf_set { s with references := s.references + 1 } _ _ _

/-! ### Exactly the redirecting messages change it -/

/-- The roster as it is stored sends to the same users as the one on the wire. -/
theorem audience_roster {me : Option Text} {members stored : Value}
    (read : Store.roster me members = some stored) : audience me stored = audience me members := by
  unfold Store.roster at read
  split at read
  · obtain ⟨list, named, rfl⟩ := Option.map_eq_some_iff.mp read
    cases members with
    | array all =>
      cases named
      simp [audience, Store.others]
    | _ => cases named
  · cases read
    rfl

theorem roster_isNone_iff (me : Option Text) (members : Value) :
    Store.roster me members = none ↔
      (accountId me).truthy ∧ (Store.others me members).isSome = false := by
  unfold Store.roster
  split
  · next signedIn => simp [signedIn]
  · next signedOut => simp [signedOut]

theorem others_isSome_of_roster {me : Option Text} {members stored : Value}
    (read : Store.roster me members = some stored) (signedIn : (accountId me).truthy) :
    (Store.others me members).isSome := by
  by_contra unread
  have nothing := (roster_isNone_iff me members).mpr ⟨signedIn, Bool.eq_false_iff.mpr unread⟩
  rw [read] at nothing
  cases nothing

/-- The recipients and the kind of a thread depend on its group alone. -/
theorem sameThread_of_groupOf {a b : App} {key : Key} (account : b.me = a.me)
    (same : groupOf b.store key = groupOf a.store key) : SameThread key a b := by
  refine ⟨fun text now => ?_, fun grouped => ?_⟩
  · rw [encryptsTo_eq, encryptsTo_eq, recipients, same, account]
    exact SameUsers.refl _
  · rwa [isGroup, same] at grouped

/-- A message leaves a thread what it is exactly when it does not redirect it. -/
theorem sameThread_received_iff (a : App) (m : Inbound) (key : Key) :
    SameThread key a (a.received m) ↔ ¬ Redirects a m key := by
  by_cases grouped : isGroupBody m.text ∧ (parseGroupBody m.text).truthy
  · obtain ⟨marked, payload⟩ := grouped
    have became := groupOf_receiveGroup a.store a.me m (parseGroupBody m.text) key
    rw [← receive_group a.store a.me marked payload] at became
    cases read : Store.roster a.me ((parseGroupBody m.text).get "members") with
    | none =>
      rw [read] at became
      obtain ⟨signedIn, unread⟩ := (roster_isNone_iff _ _).mp read
      refine iff_of_true (sameThread_of_groupOf rfl became) ?_
      rintro ⟨-, -, -, reads, -⟩
      rw [reads signedIn] at unread
      cases unread
    | some members =>
      rw [read] at became
      by_cases named : key = a.store.keyOf ((parseGroupBody m.text).get "gid")
      · simp only [if_pos named] at became
        have sends : ∀ text now, encryptsTo (a.received m).store (a.received m).me key text now =
            audience a.me ((parseGroupBody m.text).get "members") := by
          intro text now
          rw [encryptsTo_eq, recipients]
          exact (congrArg (Option.elim · _ _) became).trans (audience_roster read)
        have group : isGroup (a.received m).store key := congrArg Option.isSome became
        refine ⟨?_, fun honest => ⟨fun text now => ?_, fun _ => ?_⟩⟩
        · rintro same ⟨-, -, -, -, differs⟩
          have users := same.users [] 0
          rw [sends, encryptsTo_eq] at users
          exact differs (same.direct group) users
        · rw [sends, encryptsTo_eq]
          by_contra differs
          exact honest ⟨marked, payload, named.symm, others_isSome_of_roster read, fun _ => differs⟩
        · by_contra direct
          exact honest ⟨marked, payload, named.symm, others_isSome_of_roster read,
            fun group => absurd group direct⟩
      · simp only [if_neg named] at became
        refine iff_of_true (sameThread_of_groupOf rfl became) ?_
        rintro ⟨-, -, same, -⟩
        exact named same.symm
  · have other := congrFun (groupOf_receive_other a.store a.me grouped) key
    refine iff_of_true (sameThread_of_groupOf rfl other) ?_
    rintro ⟨marked, payload, -⟩
    exact grouped ⟨marked, payload⟩

/-! ### Whole runs -/

theorem groupOf_createGroup (s : Store) {gid : Text} (name : Text) (members : List Text)
    (now : Nat) {key : Key} (apart : Key.user gid ≠ key) :
    groupOf (s.createGroup gid name members now) key = groupOf s key :=
  (groupOf_set s (.user gid) key _).trans (if_neg (Ne.symm apart))

/-- Around a thread, every step leaves it what it is. -/
theorem step_sameThread {a b : App} {action : Action} {key : Key} (moved : a.step action = some b)
    (quiet : Unprovoked key a action) : SameThread key a b := by
  cases action with
  | account => exact quiet.elim
  | reset => exact quiet.elim
  | receive m =>
    cases moved
    obtain ⟨users, direct⟩ := (sameThread_received_iff a m key).mpr quiet
    exact ⟨users, direct⟩
  | createGroup name members now random =>
    cases moved
    exact sameThread_of_groupOf rfl (groupOf_createGroup _ name members now quiet)
  | uploaded task reply =>
    obtain ⟨upload, -, rfl⟩ := Option.map_eq_some_iff.mp moved
    exact sameThread_of_groupOf rfl (congrFun (groupOf_uploaded ..) key)
  | loaded task reply =>
    obtain ⟨download, -, rfl⟩ := Option.map_eq_some_iff.mp moved
    exact sameThread_of_groupOf rfl (congrFun (groupOf_loaded ..) key)
  | hydrate data =>
    cases moved
    exact sameThread_of_groupOf rfl (congrFun (groupOf_hydrate ..) key)
  | setPeerIdentity =>
    cases moved
    exact sameThread_of_groupOf rfl (congrFun (groupOf_setPeerIdentity ..) key)
  | ensurePeer =>
    cases moved
    exact sameThread_of_groupOf rfl (congrFun (groupOf_ensurePeer ..) key)
  | send =>
    cases moved
    exact sameThread_of_groupOf rfl (congrFun (groupOf_send ..) key)
  | sendMedia =>
    cases moved
    exact sameThread_of_groupOf rfl (congrFun (groupOf_sendMedia ..) key)
  | loadMedia =>
    cases moved
    exact sameThread_of_groupOf rfl (congrFun (groupOf_patch ..) key)
  | mediaSaved =>
    cases moved
    exact sameThread_of_groupOf rfl (congrFun (groupOf_patch ..) key)
  | applyStatus =>
    cases moved
    exact sameThread_of_groupOf rfl (congrFun (groupOf_applyStatus ..) key)
  | markRead =>
    cases moved
    exact sameThread_of_groupOf rfl (congrFun (groupOf_markRead ..) key)
  | toggleStar =>
    cases moved
    exact sameThread_of_groupOf rfl (congrFun (groupOf_editMessages ..) key)
  | dismissScamWarning =>
    cases moved
    exact sameThread_of_groupOf rfl (congrFun (groupOf_editMessages ..) key)

/-- In a run in which no inbound message redirects a thread, the thread keeps its
recipients, and a thread of two does not become a group.  In every state that is
reached so, an inbound message keeps the thread's recipients exactly when it
comes from a member of its group or does not redirect it. -/
theorem recipients_kept_iff_not_redirected {a b : App} {key : Key}
    (reached : (app.startingAt a).Reached (Unprovoked key) b) :
    SameThread key a b ∧
      ∀ m, Kept b m key ↔ isMember b.store key m.fromUserId ∨ ¬ Redirects b m key := by
  refine ⟨?_, fun m => or_congr Iff.rfl (sameThread_received_iff b m key)⟩
  apply reached.invariant (SameThread key a)
  · rintro s rfl
    exact SameThread.refl key s
  · exact fun s action s' same quiet moved => same.trans (step_sameThread moved quiet)

/-! ### A thread that an outsider takes over -/

def bob : Key := .user (utf16 "bob")

def inbound (fromUserId body : String) : Inbound :=
  { fromUserId := utf16 fromUserId, text := utf16 body, receivedAt := 1
    envelopeId := none, verdict := none }

/-- A text, then a group body for another thread. -/
def ordinary : List Action :=
  [.receive (inbound "mallory" "hello"),
    .receive (inbound "carol" "hwfa-group:\x7b\"gid\":\"group-1\",\"members\":[\"alice\",\"carol\"]\x7d")]

/-- alice has a thread with bob. -/
def withBob : List Action := [.account (some (utf16 "alice")), .ensurePeer bob none]

/-- A group body for the thread with bob. -/
def capturing : Inbound :=
  inbound "mallory" "hwfa-group:\x7b\"gid\":\"bob\",\"members\":[\"mallory\"]\x7d"

/-- Messages about other threads leave the thread with bob alone. -/
theorem ordinary_messages_keep_bob :
    ∃ a b, app.Reachable a ∧ (app.startingAt a).Reached (Unprovoked bob) b ∧
      b.store.convs.entries.length = 3 ∧ SameThread bob a b := by
  have opened : (app.run {} withBob).isSome := by decide +kernel
  obtain ⟨a, began⟩ := Option.isSome_iff_exists.mp opened
  have observed : ((app.run {} withBob).bind fun a =>
      ((app.startingAt a).checkedRun (Unprovoked bob) a ordinary).map fun b =>
        b.store.convs.entries.length) = some 3 := by decide +kernel
  rw [began, Option.bind_some] at observed
  obtain ⟨b, reached, threads⟩ := Machine.reached_of_observed observed (.start rfl)
  exact ⟨a, b, Machine.reachable_of_run rfl withBob began, reached, threads,
    (recipients_kept_iff_not_redirected reached).1⟩

/-- mallory names alice's thread with bob as a group of her own: what alice sends
in it from then on is encrypted to mallory instead of bob. -/
theorem group_body_captures_thread :
    ∃ a, app.Reachable a ∧ (a.store.convs.lookup bob).isSome ∧
      encryptsTo a.store a.me bob (utf16 "hi bob") 2 = [bob.value] ∧
      encryptsTo (a.received capturing).store a.me bob (utf16 "hi bob") 2 =
        [.string (utf16 "mallory")] ∧
      ¬ Kept a capturing bob := by
  have observed : ((app.run {} withBob).map fun a =>
      ((a.store.convs.lookup bob).isSome, encryptsTo a.store a.me bob (utf16 "hi bob") 2,
        encryptsTo (a.received capturing).store a.me bob (utf16 "hi bob") 2,
        isMember a.store bob (utf16 "mallory"))) =
      some (true, [bob.value], [.string (utf16 "mallory")], false) := by decide +kernel
  obtain ⟨a, reachable, seen⟩ := Machine.reachable_of_observed observed rfl
  obtain ⟨there, before, after, outsider⟩ : _ ∧ _ ∧ _ ∧ _ := by simpa using seen
  refine ⟨a, reachable, there, before, after, ?_⟩
  rintro (member | same)
  · exact absurd (outsider.symm.trans member) (by decide)
  · have users : SameUsers (encryptsTo (a.received capturing).store a.me bob (utf16 "hi bob") 2)
        (encryptsTo a.store a.me bob (utf16 "hi bob") 2) := same.users (utf16 "hi bob") 2
    rw [before, after] at users
    exact absurd users (by decide +kernel)

end Hwfa.ConversationRouting
