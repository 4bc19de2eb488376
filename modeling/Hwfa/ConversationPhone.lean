import Hwfa.ConversationInbound
import Hwfa.Decimals

/-!
The app's process around the conversation store: the client's relay, what the
native store holds, and every piece of work of the store that is under way.

Work that waits (for the saved conversations, a decryption, an upload, a
download, a session with a peer) goes on when it is answered, whatever has
happened meanwhile: nothing cancels it but the end of the process.  A task
remembers whether its account has been signed out since; the app does not.

The native calls are answered in the order in which they are made, so a load
finds what was saved before it was asked for.  A save may happen at any moment:
the timer runs out at most a third of a second after a change.
-/

namespace Hwfa.ConversationPhone

open Hwfa.Json Hwfa.Maps Hwfa.Machines Hwfa.ConversationStore Hwfa.ConversationInbound

/-! ### The saved conversations -/

/-- A message as it is read back: without the decrypted bytes. -/
def persistedMessage (m : ChatMessage) : ChatMessage :=
  { m with
    text := reread m.text
    media := m.media.map reread
    mediaMime := reread m.mediaMime
    mediaName := reread m.mediaName
    mediaSize := reread m.mediaSize
    mediaUri := none
    mediaState := none }

/-- A conversation as it is read back. -/
def persistedConversation (c : Conversation) : Conversation :=
  { c with
    peerUserId := reread c.peerUserId
    messages := c.messages.map persistedMessage
    group := c.group.map fun group =>
      { name := reread group.name, members := reread group.members } }

/-- What is saved, as it is read back: `JSON.parse` after `JSON.stringify`. -/
def schedulePersist (s : Store) : PersistedState where
  counter := s.counter
  conversations := s.convs.values.map persistedConversation

/-- What `reset` saves. -/
def cleared : PersistedState := { counter := 0, conversations := [] }

/-! ### The process -/

/-- Work that goes on when it is answered. -/
structure Pending (α : Type) where
  work : α
  /-- begun under an account that has been signed out since -/
  former : Bool := false
  deriving DecidableEq

def Pending.retire {α : Type} (task : Pending α) : Pending α := { task with former := true }

/-- An inbound envelope that is being decrypted. -/
structure Sealed where
  senderId : Text
  envelopeId : Option Text
  deriving DecidableEq

/-- What the decryption and the scam detector make of an envelope. -/
structure Opened where
  text : Text
  receivedAt : Nat
  verdict : Option ScamVerdict

def Sealed.inbound (e : Sealed) (o : Opened) : Inbound where
  fromUserId := e.senderId
  text := o.text
  receivedAt := o.receivedAt
  envelopeId := e.envelopeId
  verdict := o.verdict

/-- A message of a thread that waits for its attachment. -/
structure Attachment where
  peerUserId : Key
  messageId : Text
  deriving DecidableEq

structure Upload where
  peerUserId : Key
  messageId : Text
  clientRef : Text
  deriving DecidableEq

/-- What an upload comes back with. -/
structure MediaReference where
  keyB64 : Text
  ivB64 : Text
  mime : Text
  size : Nat
  sha256B64 : Text
  name : Option Text
  locator : Text

def MediaReference.value (ref : MediaReference) : Value :=
  .object ([(utf16 "keyB64", .string ref.keyB64), (utf16 "ivB64", .string ref.ivB64),
      (utf16 "mime", .string ref.mime), (utf16 "size", .number (.finite (ref.size * one))),
      (utf16 "sha256B64", .string ref.sha256B64)] ++
    (ref.name.toList.map fun name => (utf16 "name", .string name)) ++
    [(utf16 "locator", .string ref.locator)])

deriving instance DecidableEq for Outbound

/-- What the client hands to its relay. -/
inductive Sent where
  | text (o : Outbound)
  | readReceipt (peer : Value) (envelopeId : Text)
  deriving DecidableEq

structure Phone where
  store : Store := {}
  accountId : Option Text := none
  /-- whether the client has a relay -/
  relay : Bool := false
  started : Bool := false
  /-- what the native store holds -/
  messages : Option PersistedState := none
  /-- `hydrate` waits for what was loaded -/
  loading : Option (Pending (Option PersistedState)) := none
  decrypts : List (Pending Sealed) := []
  uploads : List (Pending Upload) := []
  downloads : List (Pending Attachment) := []
  /-- `saveMedia`s that wait for their download and for the file -/
  saves : List (Pending Attachment) := []
  /-- `sendText`s that wait for the peer's devices and sessions -/
  sends : List (Pending Outbound) := []
  /-- what has been handed to the relay so far -/
  sent : List Sent := []

inductive Action where
  | start
  | hydrated (former : Bool) (read : Bool)
  | save (written : Bool)
  /-- the process ends -/
  | kill
  | signIn (userId : Text)
  | connect
  | disconnect
  | close
  | reset (written : Bool)
  | deliver (envelope : Sealed) (former : Bool)
  | decrypted (task : Pending Sealed) (outcome : Option Opened)
  /-- an envelope of a `sendText` is handed over -/
  | transmit (task : Pending Outbound)
  | sendEnded (task : Pending Outbound)
  | setPeerIdentity (peerUserId : Key) (identityB64 : Text)
  | ensurePeer (peerUserId : Key) (peerPhone : Option Text)
  | send (peerUserId : Key) (text : Text) (now : Nat)
  | createGroup (name : Text) (members : List Text) (now : Nat) (random : Text)
  | sendTyping (conversationId : Key) (typing : Bool)
  | sendMedia (peerUserId : Key) (media : MediaPlaintext) (now : Nat)
  | uploaded (task : Pending Upload) (reply : Option MediaReference)
  | loadMedia (peerUserId : Key) (messageId : Text)
  | downloaded (task : Pending Attachment) (reply : Option Text)
  | saveMedia (peerUserId : Key) (messageId : Text)
  | mediaSaved (task : Pending Attachment) (written : Bool)
  | applyStatus (clientRef : Text) (status : MessageStatus)
  | markRead (peerUserId : Key)
  | toggleStar (peerUserId : Key) (messageId : Text)
  | dismissScamWarning (peerUserId : Key) (messageId : Text)

/-- A thread that a screen can name: a user's or a group's, or one of the list. -/
def named (s : Store) : Key → Bool
  | .primitive (.string _) => true
  | key => (s.convs.lookup key).isSome

/-- The detector's score is a number between 0 and 1. -/
def Opened.analyzed (o : Opened) : Bool :=
  o.verdict.all fun verdict => verdict.score ≠ .infinite true && verdict.score ≠ .infinite false

namespace Phone

/-- `sendText` throws at once without a relay or an account. -/
def connected (p : Phone) : Bool := p.relay && p.accountId.any (· ≠ [])

/-- `sendText`s that are begun, unless they throw at once. -/
def sendTexts (p : Phone) (outbounds : List Outbound) (former : Bool) : Phone :=
  if p.connected then
    { p with sends := p.sends ++ outbounds.map fun work => { work, former } }
  else p

/-- What the client hands to its relay, if it has one. -/
def handOver (p : Phone) (out : List Sent) : Phone :=
  if p.relay then { p with sent := p.sent ++ out } else p

/-- The end of `close`. -/
def closed (p : Phone) : Phone := { p with relay := false }

/-- `reset`: the threads are dropped and the empty state is saved, if it can be.
What is under way goes on. -/
def reset (p : Phone) (written : Bool) : Phone :=
  { p with
    store := p.store.reset
    messages := if written then some cleared else p.messages
    loading := p.loading.map Pending.retire
    decrypts := p.decrypts.map Pending.retire
    uploads := p.uploads.map Pending.retire
    downloads := p.downloads.map Pending.retire
    saves := p.saves.map Pending.retire
    sends := p.sends.map Pending.retire }

/-- The handler of inbound text, once it is subscribed. -/
def received (p : Phone) (m : Inbound) (former : Bool) : Phone :=
  if p.started then
    let r := p.store.receive p.accountId m
    let download := match r.handoff with
      | some (.download peerUserId messageId _) => [{ work := { peerUserId, messageId }, former }]
      | _ => []
    { p with store := r.store, downloads := p.downloads ++ download }
  else p

/-- `sendMedia` goes on: without a relay the message is marked as failed. -/
def mediaUploaded (p : Phone) (task : Pending Upload) (reply : Option MediaReference) : Phone :=
  let { peerUserId, messageId, clientRef } := task.work
  let (store, outbounds) :=
    p.store.uploaded peerUserId messageId clientRef (reply.map (·.value))
  if reply.isSome && ! p.connected then
    { p with store := store.patch peerUserId messageId fun m =>
        { m with mediaState := some .error } }
  else { p with store }.sendTexts outbounds task.former

def step (p : Phone) : Action → Option Phone
  | .start => if p.started then none else
    some { p with started := true, loading := some { work := p.messages } }
  | .hydrated former read =>
    match p.loading with
    | some task => if task.former = former then
        let data := if read then task.work else none
        some { p with store := data.elim p.store p.store.hydrate, loading := none }
      else none
    | none => none
  | .save written =>
    some (if written then { p with messages := some (schedulePersist p.store) } else p)
  | .kill => some { messages := p.messages, sent := p.sent }
  | .signIn userId => some { p with accountId := some userId, relay := true }
  | .connect => some { p with relay := p.accountId.isSome }
  | .disconnect => some p.closed
  | .close => some p.closed
  | .reset written => some (p.reset written)
  | .deliver work former => some { p with decrypts := p.decrypts ++ [{ work, former }] }
  | .decrypted task outcome => if task ∈ p.decrypts ∧ outcome.all Opened.analyzed then
      let p := { p with decrypts := p.decrypts.erase task }
      some (outcome.elim p fun o => p.received (task.work.inbound o) task.former)
    else none
  | .transmit task => if task ∈ p.sends then some (p.handOver [.text task.work]) else none
  | .sendEnded task => if task ∈ p.sends then some { p with sends := p.sends.erase task } else none
  | .setPeerIdentity key identity => some { p with store := p.store.setPeerIdentity key identity }
  | .ensurePeer key phone => if named p.store key then
      some { p with store := p.store.ensurePeer key phone }
    else none
  | .send key text now => if named p.store key then
      let (store, outbounds) := p.store.send p.accountId key text now
      some ({ p with store }.sendTexts outbounds false)
    else none
  | .createGroup name members now random =>
    some { p with store := p.store.createGroup (newGroupId now random) name members now }
  | .sendTyping key typing =>
    some (p.sendTexts (p.store.sendTyping p.accountId key typing) false)
  | .sendMedia key media now => if named p.store key then
      let (store, messageId, clientRef) := p.store.sendMedia key media now
      some { p with
        store, uploads := p.uploads ++ [{ work := { peerUserId := key, messageId, clientRef } }] }
    else none
  | .uploaded task reply => if task ∈ p.uploads then
      some ({ p with uploads := p.uploads.erase task }.mediaUploaded task reply)
    else none
  | .loadMedia key messageId => some { p with
      store := p.store.loadMedia key messageId
      downloads := p.downloads ++ [{ work := { peerUserId := key, messageId } }] }
  | .downloaded task reply => if task ∈ p.downloads then
      some { p with
        store := p.store.loaded task.work.peerUserId task.work.messageId reply
        downloads := p.downloads.erase task }
    else none
  | .saveMedia key messageId =>
    some { p with saves := p.saves ++ [{ work := { peerUserId := key, messageId } }] }
  | .mediaSaved task written => if task ∈ p.saves then
      some { p with
        store := if written then p.store.mediaSaved task.work.peerUserId task.work.messageId
          else p.store
        saves := p.saves.erase task }
    else none
  | .applyStatus ref status => some { p with store := p.store.applyStatus ref status }
  | .markRead key =>
    let (store, receipts) := p.store.markRead key
    some ({ p with store }.handOver (receipts.map fun (r : Value × Text) => .readReceipt r.1 r.2))
  | .toggleStar key messageId => some { p with store := p.store.toggleStar key messageId }
  | .dismissScamWarning key messageId =>
    some { p with store := p.store.dismissScamWarning key messageId }

end Phone

/-- A phone on which the app has just been installed. -/
def phone : Machine Phone Action where
  start := fun p => p = {}
  step := Phone.step

/-! ### What a step does to the threads -/

def messageId (n : Nat) : Text := unit 'm' :: decimal n

/-- Digits are told apart by their units. -/
theorem unit_of_isDigit {c : Char} (digit : c.isDigit) : Char.ofNat (unit c).toNat = c := by
  have bound : c.toNat < 0x10000 := by
    simp only [Char.isDigit, Bool.and_eq_true, decide_eq_true_eq, ge_iff_le,
      UInt32.le_iff_toNat_le] at digit
    exact Nat.lt_of_le_of_lt digit.2 (by decide)
  rw [unit, UInt16.toNat_ofNat', Nat.mod_eq_of_lt bound, Char.ofNat_toNat]

theorem messageId_injective {m n : Nat} (same : messageId m = messageId n) : m = n := by
  have digits (k : Nat) : (decimal k).map (fun u => Char.ofNat u.toNat) = Nat.toDigits 10 k := by
    rw [decimal, List.map_map]
    refine (List.map_congr_left fun c member => ?_).trans (List.map_id _)
    exact unit_of_isDigit (List.all_eq_true.mp (Decimals.digits_are_digits k) c member)
  have same := congrArg (List.map fun u => Char.ofNat u.toNat) (List.cons.inj same).2
  rw [digits, digits] at same
  have read := Decimals.readInt_digits m
  rw [same, Decimals.readInt_digits] at read
  exact Int.ofNat.inj (Option.some.inj read).symm

/-- The ids of a thread's messages, in order. -/
def idsAt (s : Store) (key : Key) : List Text := (getMessages s key).map (·.id)

theorem idsAt_eq (s : Store) (key : Key) : idsAt s key = (s.ensure key).messages.map (·.id) := by
  rw [ensure_messages, idsAt]

/-- What every operation but `hydrate` and `reset` does to the threads: none is
lost, one that is new is one that it `opens`, each keeps its peer and the ids of
its messages, and at most one message is `made`, which comes last and has the
next id. -/
structure Effect (opens : Key → Prop) (made : Option Key) (s s' : Store) : Prop where
  remain : ∀ key, (s.convs.lookup key).isSome → (s'.convs.lookup key).isSome
  opened : ∀ key, (s'.convs.lookup key).isSome → (s.convs.lookup key).isSome ∨ opens key
  peers : ∀ key, (s'.ensure key).peerUserId = (s.ensure key).peerUserId
  ids : ∀ key, idsAt s' key =
    idsAt s key ++ if made = some key then [messageId s.counter] else []
  counter : s'.counter = s.counter + if made.isSome then 1 else 0

namespace Effect

variable {opens : Key → Prop} {made : Option Key} {s s' t : Store}

theorem of_same (convs : s'.convs = s.convs) (counter : s'.counter = s.counter) :
    Effect opens none s s' where
  remain key there := by rwa [convs]
  opened key there := .inl (by rwa [convs] at there)
  peers key := by rw [Store.ensure, convs, Store.ensure]
  ids key := by
    rw [if_neg (by simp), List.append_nil, idsAt, getMessages, convs]
    rfl
  counter := counter

theorem refl (s : Store) : Effect opens none s s := of_same rfl rfl

/-- A thread is stored. -/
theorem put {key : Key} {conv : Conversation} (stored : s'.convs = s.convs.put key conv)
    (peer : conv.peerUserId = (s.ensure key).peerUserId)
    (ids : conv.messages.map (·.id) = idsAt s key ++
      if made = some key then [messageId s.counter] else [])
    (alone : made = none ∨ made = some key)
    (counter : s'.counter = s.counter + if made.isSome then 1 else 0)
    (may : (s.convs.lookup key).isSome ∨ opens key) : Effect opens made s s' where
  remain other there := by
    rw [stored, FinMap.lookup_put_apply]
    split
    · rfl
    · exact there
  opened other there := by
    rw [stored, FinMap.lookup_put_apply] at there
    split at there
    · next same => rwa [same]
    · exact .inl there
  peers other := by
    rw [Store.ensure, stored, FinMap.lookup_put_apply]
    split
    · next same => rw [same, Option.getD_some, peer]
    · rfl
  ids other := by
    rw [idsAt, getMessages, stored, FinMap.lookup_put_apply]
    split
    · next same => rw [same, Option.elim_some, ids]
    · next apart =>
      have unmade : made ≠ some other := by
        rintro rfl
        rcases alone with absent | same
        · cases absent
        · exact apart (Option.some.inj same)
      rw [if_neg unmade, List.append_nil]
      rfl
  counter := counter

theorem kept {key : Key} {conv : Conversation} (stored : s'.convs = s.convs.put key conv)
    (peer : conv.peerUserId = (s.ensure key).peerUserId)
    (ids : conv.messages.map (·.id) = idsAt s key) (counter : s'.counter = s.counter)
    (may : (s.convs.lookup key).isSome ∨ opens key) : Effect opens none s s' :=
  put stored peer (by rw [ids, if_neg (by simp), List.append_nil]) (.inl rfl) counter may

theorem appended {key : Key} {conv : Conversation} {message : ChatMessage}
    (stored : s'.convs = s.convs.put key conv)
    (peer : conv.peerUserId = (s.ensure key).peerUserId)
    (messages : conv.messages = (s.ensure key).messages ++ [message])
    (numbered : message.id = messageId s.counter) (counter : s'.counter = s.counter + 1)
    (may : (s.convs.lookup key).isSome ∨ opens key) : Effect opens (some key) s s' :=
  put stored peer (by rw [messages, idsAt_eq, if_pos rfl, List.map_append, ← numbered]; rfl)
    (.inr rfl) counter may

theorem trans (first : Effect opens made s t) (second : Effect opens none t s') :
    Effect opens made s s' where
  remain key there := second.remain key (first.remain key there)
  opened key there := (second.opened key there).elim (first.opened key) .inr
  peers key := (second.peers key).trans (first.peers key)
  ids key := by rw [second.ids, if_neg (by simp), List.append_nil, first.ids]
  counter := by
    rw [second.counter, first.counter]
    rfl

theorem weaken {wider : Key → Prop} (effect : Effect opens made s s')
    (weaker : ∀ key, opens key → wider key) : Effect wider made s s' :=
  { effect with opened := fun key there => (effect.opened key there).imp_right (weaker key) }

end Effect

/-- A thread with a user, or a group's. -/
def IsUser (key : Key) : Prop := ∃ userId, key = .user userId

/-- A key as a value that was parsed gives it. -/
def Proper (key : Key) : Prop := ∀ reference p, key ≠ .object reference (.primitive p)

theorem proper_user (userId : Text) : Proper (.user userId) := by
  intro reference p same
  cases same

theorem proper_keyOf (s : Store) (v : Value) : Proper (s.keyOf v) := by
  intro reference p same
  cases v <;> cases same

theorem ensure_of_lookup {s : Store} {key : Key} {conv : Conversation}
    (found : s.convs.lookup key = some conv) : s.ensure key = conv := by
  rw [Store.ensure, found, Option.getD_some]

/-- What a screen can name is there, or is a user or a group. -/
theorem there_or_user_of_named {s : Store} {key : Key} (can : named s key) :
    (s.convs.lookup key).isSome ∨ IsUser key := by
  unfold named at can
  split at can
  · next userId => exact .inr ⟨userId, rfl⟩
  · exact .inl can

section

variable {s : Store} {key : Key}

/-- A thread that is there is stored with the same peer and the same ids. -/
theorem effect_edit {s' : Store} {conv conv' : Conversation} (found : s.convs.lookup key = some conv)
    (stored : s'.convs = s.convs.put key conv') (peer : conv'.peerUserId = conv.peerUserId)
    (ids : conv'.messages.map (·.id) = conv.messages.map (·.id)) (counter : s'.counter = s.counter) :
    Effect IsUser none s s' := by
  refine .kept stored (by rw [peer, ensure_of_lookup found]) ?_ counter (.inl (by rw [found]; rfl))
  rw [ids, idsAt_eq, ensure_of_lookup found]

theorem setPeerIdentity_effect (identity : Text) :
    Effect IsUser none s (s.setPeerIdentity key identity) := by
  unfold Store.setPeerIdentity
  split
  · next conv found =>
    split
    · exact .refl s
    · exact effect_edit found rfl rfl rfl rfl
  · exact .refl s

theorem ensurePeer_effect (phone : Option Text) (can : named s key) :
    Effect IsUser none s (s.ensurePeer key phone) := by
  have may := there_or_user_of_named can
  unfold Store.ensurePeer
  dsimp only
  split
  · split
    · exact .kept rfl rfl (idsAt_eq s key).symm rfl may
    · exact .kept rfl rfl (idsAt_eq s key).symm rfl may
  · exact .kept rfl rfl (idsAt_eq s key).symm rfl may

theorem send_effect (me : Option Text) (text : Text) (now : Nat) (can : named s key) :
    Effect IsUser (some key) s (s.send me key text now).1 := by
  have may := there_or_user_of_named can
  unfold Store.send
  dsimp only
  split
  · exact .appended rfl rfl rfl rfl rfl may
  · exact .appended rfl rfl rfl rfl rfl may

theorem sendMedia_effect (media : MediaPlaintext) (now : Nat) (can : named s key) :
    Effect IsUser (some key) s (s.sendMedia key media now).1 :=
  .appended rfl rfl rfl rfl rfl (there_or_user_of_named can)

theorem createGroup_effect (gid name : Text) (members : List Text) (now : Nat) :
    Effect IsUser none s (s.createGroup gid name members now) :=
  .kept rfl rfl (idsAt_eq s (.user gid)).symm rfl (.inr ⟨gid, rfl⟩)

theorem patch_effect (id : Text) {fields : ChatMessage → ChatMessage}
    (kept : ∀ m, (fields m).id = m.id) : Effect IsUser none s (s.patch key id fields) := by
  unfold Store.patch
  split
  · next conv found =>
    split
    · next i there =>
      refine effect_edit found rfl rfl ?_ rfl
      have changed := map_changeFirst conv.messages id (f := (·.id)) kept
      rwa [changeFirst, there, Option.elim_some] at changed
    · exact .refl s
  · exact .refl s

theorem editMessages_effect (id : Text) {edit : ChatMessage → ChatMessage}
    (kept : ∀ m, (edit m).id = m.id) : Effect IsUser none s (s.editMessages key id edit) := by
  unfold Store.editMessages
  split
  · next conv found =>
    refine effect_edit found rfl rfl ?_ rfl
    rw [List.map_map]
    apply List.map_congr_left
    intro m inside
    rw [Function.comp_apply]
    split
    · exact kept m
    · rfl
  · exact .refl s

theorem uploaded_effect (id ref : Text) (reply : Option Value) :
    Effect IsUser none s (s.uploaded key id ref reply).1 := by
  cases reply with
  | none => exact patch_effect id fun _ => rfl
  | some media => exact patch_effect id fun _ => rfl

theorem loaded_effect (id : Text) (reply : Option Text) :
    Effect IsUser none s (s.loaded key id reply) := by
  cases reply with
  | none => exact patch_effect id fun _ => rfl
  | some uri => exact patch_effect id fun _ => rfl

theorem applyStatus_effect (ref : Text) (status : MessageStatus) :
    Effect IsUser none s (s.applyStatus ref status) := by
  unfold Store.applyStatus
  dsimp only
  split
  · next key conv found =>
    have there : s.convs.lookup key = some conv :=
      AList.mem_lookup_iff.mpr (List.mem_of_find?_eq_some found)
    split
    · exact .refl s
    · exact effect_edit there rfl rfl (map_modify _ _ fun _ => rfl) rfl
  · exact .refl s

theorem markRead_effect : Effect IsUser none s (s.markRead key).1 := by
  unfold Store.markRead
  split
  · next conv found =>
    have ids : (conv.messages.map fun m =>
        if ! m.mine && ! m.readSent && m.envelopeId.any (· ≠ []) then { m with readSent := true }
        else m).map (·.id) = conv.messages.map (·.id) := by
      rw [List.map_map]
      apply List.map_congr_left
      intro m inside
      rw [Function.comp_apply]
      split <;> rfl
    dsimp only
    split
    · exact effect_edit found rfl rfl ids rfl
    · exact effect_edit found rfl rfl ids rfl
  · exact .refl s

end

/-- The thread that an inbound message is appended to, if it is. -/
def threadOf (s : Store) (me : Option Text) (m : Inbound) : Option Key :=
  let media := parseMediaBody m.text
  let group := parseGroupBody m.text
  if IsChat m.text then
    if media.truthy then
      (mediaLabel (media.get "mime") (media.get "name")).map fun _ => .user m.fromUserId
    else some (.user m.fromUserId)
  else if isGroupBody m.text ∧ group.truthy then
    (Store.roster me (group.get "members")).map fun _ => s.keyOf (group.get "gid")
  else none

theorem Effect.of_appends {opens : Key → Prop} {s s' : Store} {key : Key} {message : ChatMessage}
    (appends : Appends s s' key message) (numbered : message.id = messageId s.counter)
    (may : opens key) : Effect opens (some key) s s' where
  remain other there := by
    by_cases same : other = key
    · rw [same]
      exact appends.there
    · rwa [appends.others other same]
  opened other there := by
    by_cases same : other = key
    · exact .inr (same ▸ may)
    · exact .inl (by rwa [appends.others other same] at there)
  peers other := by
    by_cases same : other = key
    · rw [same, appends.peer]
    · rw [Store.ensure, appends.others other same, Store.ensure]
  ids other := by
    by_cases same : other = key
    · rw [same, if_pos rfl, idsAt, appends.messages, List.map_append, ← numbered]
      rfl
    · rw [if_neg fun named => same (Option.some.inj named).symm, List.append_nil, idsAt,
        getMessages, appends.others other same]
      rfl
  counter := appends.counter

/-- A thread that is looked for is there afterwards. -/
theorem opened_effect {opens : Key → Prop} {s s' : Store} {key : Key}
    (stored : s'.convs = (s.set key (s.ensure key)).convs) (counter : s'.counter = s.counter)
    (may : opens key) : Effect opens none s s' :=
  .kept stored rfl (idsAt_eq s key).symm counter (.inr may)

theorem receiveGroup_effect (s : Store) (me : Option Text) (m : Inbound) (payload : Value) :
    Effect Proper ((Store.roster me (payload.get "members")).map fun _ => s.keyOf (payload.get "gid"))
      s (s.receiveGroup me m payload).store := by
  have proper := proper_keyOf s (payload.get "gid")
  cases read : Store.roster me (payload.get "members") with
  | none => exact opened_effect (receiveGroup_threw read).2.1 (receiveGroup_threw read).2.2 proper
  | some members => exact .of_appends (receiveGroup_appends read).2 rfl proper

theorem receiveChat_effect (s : Store) (m : Inbound) :
    Effect IsUser
      (if (parseMediaBody m.text).truthy then
        (mediaLabel ((parseMediaBody m.text).get "mime") ((parseMediaBody m.text).get "name")).map
          fun _ => Key.user m.fromUserId
      else some (.user m.fromUserId)) s (s.receiveChat m).store := by
  have user : IsUser (.user m.fromUserId) := ⟨m.fromUserId, rfl⟩
  split
  · next media =>
    cases labelled : mediaLabel ((parseMediaBody m.text).get "mime")
        ((parseMediaBody m.text).get "name") with
    | none =>
      obtain ⟨-, stored, counter⟩ := receiveChat_threw media labelled
      exact opened_effect stored counter user
    | some label =>
      obtain ⟨-, t, appends, became⟩ := receiveChat_media media labelled
      have effect : Effect IsUser (some (.user m.fromUserId)) s t := .of_appends appends rfl user
      rcases became with same | ⟨-, same⟩
      · rwa [same]
      · rw [same]
        exact effect.trans (patch_effect _ fun _ => rfl)
  · next plain => exact .of_appends (receiveChat_plain plain).2.2 rfl user

theorem receive_effect (s : Store) (me : Option Text) (m : Inbound) :
    Effect Proper (threadOf s me m) s (s.receive me m).store := by
  have taken := receive_taken s me m
  generalize s.receive me m = r at taken
  unfold threadOf
  cases taken with
  | aside _ convs counter _ apart ungrouped =>
    rw [if_neg apart, if_neg fun group => ungrouped group.1 group.2]
    exact .of_same convs counter
  | group grouped payload =>
    rw [if_neg fun chat => chat.2.2.1 grouped, if_pos ⟨grouped, payload⟩]
    exact receiveGroup_effect ..
  | chat chat =>
    rw [if_pos chat]
    refine (receiveChat_effect s m).weaken ?_
    rintro _ ⟨userId, rfl⟩
    exact proper_user userId

/-- The thread that an action appends a message to, if it does. -/
def made (p : Phone) : Action → Option Key
  | .send key _ _ | .sendMedia key _ _ => some key
  | .decrypted task (some o) =>
    if p.started then threadOf p.store p.accountId (task.work.inbound o) else none
  | _ => none

/-- The threads that an action may open: only an inbound message opens one that is
not a user's. -/
def opens : Action → Key → Prop
  | .decrypted .. => Proper
  | _ => IsUser

/-- An action after which the threads are others. -/
def replaces : Action → Prop
  | .hydrated .. | .kill | .reset .. => True
  | _ => False

instance (action : Action) : Decidable (replaces action) := by
  cases action <;> unfold replaces <;> infer_instance

namespace Phone

@[simp] theorem sendTexts_store (p : Phone) (outbounds : List Outbound) (former : Bool) :
    (p.sendTexts outbounds former).store = p.store := by
  unfold sendTexts
  split <;> rfl

@[simp] theorem handOver_store (p : Phone) (out : List Sent) :
    (p.handOver out).store = p.store := by
  unfold handOver
  split <;> rfl

theorem received_store (p : Phone) (m : Inbound) (former : Bool) :
    (p.received m former).store = if p.started then (p.store.receive p.accountId m).store
      else p.store := by
  unfold received
  split <;> rfl

theorem mediaUploaded_effect (p : Phone) (task : Pending Upload) (reply : Option MediaReference) :
    Effect IsUser none p.store (p.mediaUploaded task reply).store := by
  have uploaded : Effect IsUser none p.store (p.store.uploaded task.work.peerUserId
      task.work.messageId task.work.clientRef (reply.map (·.value))).1 := uploaded_effect ..
  unfold mediaUploaded
  dsimp only
  split
  · exact uploaded.trans (patch_effect _ fun _ => rfl)
  · rwa [sendTexts_store]

end Phone

theorem hydrate_counter (s : Store) (data : PersistedState) :
    (s.hydrate data).counter = max s.counter data.counter := by
  refine hydrate_invariant (·.counter = max s.counter data.counter) rfl ?_ fun _ same => same
  intro t c _ same
  rw [← same]
  unfold Store.hydrateOne
  dsimp only
  split <;> rfl

/-- `hydrate` goes on with what was loaded, or without. -/
theorem step_hydrated {p p' : Phone} {former read : Bool}
    (moved : p.step (.hydrated former read) = some p') :
    ∃ task, p.loading = some task ∧ task.former = former ∧
      p' = { p with
        store := (if read then task.work else none).elim p.store p.store.hydrate
        loading := none } := by
  unfold Phone.step at moved
  dsimp only at moved
  split at moved
  · next task waits =>
    obtain ⟨same, moved⟩ := Option.ite_none_right_eq_some.mp moved
    exact ⟨task, waits, same, (Option.some.inj moved).symm⟩
  · cases moved

/-- What a step does to the threads. -/
theorem step_effect {p p' : Phone} {action : Action} (moved : p.step action = some p')
    (kept : ¬ replaces action) : Effect (opens action) (made p action) p.store p'.store := by
  cases action with
  | hydrated | kill | reset => exact (kept trivial).elim
  | start =>
    obtain ⟨-, same⟩ := Option.ite_none_left_eq_some.mp moved
    cases same
    exact .refl _
  | save written =>
    cases moved
    cases written <;> exact .refl _
  | decrypted task outcome =>
    obtain ⟨-, same⟩ := Option.ite_none_right_eq_some.mp moved
    cases same
    cases outcome with
    | none => exact .refl _
    | some o =>
      dsimp only [Option.elim_some, made, opens]
      rw [Phone.received_store]
      by_cases subscribed : p.started
      · rw [if_pos subscribed, if_pos subscribed]
        exact receive_effect ..
      · rw [if_neg subscribed, if_neg subscribed]
        exact .refl _
  | transmit task =>
    obtain ⟨-, same⟩ := Option.ite_none_right_eq_some.mp moved
    cases same
    rw [Phone.handOver_store]
    exact .refl _
  | sendEnded task =>
    obtain ⟨-, same⟩ := Option.ite_none_right_eq_some.mp moved
    cases same
    exact .refl _
  | ensurePeer key phone =>
    obtain ⟨can, same⟩ := Option.ite_none_right_eq_some.mp moved
    cases same
    exact ensurePeer_effect phone can
  | send key text now =>
    obtain ⟨can, same⟩ := Option.ite_none_right_eq_some.mp moved
    cases same
    rw [Phone.sendTexts_store]
    exact send_effect p.accountId text now can
  | sendMedia key media now =>
    obtain ⟨can, same⟩ := Option.ite_none_right_eq_some.mp moved
    cases same
    exact sendMedia_effect media now can
  | uploaded task reply =>
    obtain ⟨-, same⟩ := Option.ite_none_right_eq_some.mp moved
    cases same
    exact Phone.mediaUploaded_effect { p with uploads := p.uploads.erase task } task reply
  | downloaded task reply =>
    obtain ⟨-, same⟩ := Option.ite_none_right_eq_some.mp moved
    cases same
    exact loaded_effect ..
  | mediaSaved task written =>
    obtain ⟨-, same⟩ := Option.ite_none_right_eq_some.mp moved
    cases same
    cases written with
    | false => exact .refl _
    | true => exact patch_effect _ fun _ => rfl
  | createGroup name members now random =>
    cases moved
    exact createGroup_effect ..
  | sendTyping key typing =>
    cases moved
    rw [Phone.sendTexts_store]
    exact .refl _
  | setPeerIdentity key identity =>
    cases moved
    exact setPeerIdentity_effect identity
  | loadMedia key id =>
    cases moved
    exact patch_effect _ fun _ => rfl
  | applyStatus ref status =>
    cases moved
    exact applyStatus_effect ref status
  | markRead key =>
    cases moved
    rw [Phone.handOver_store]
    exact markRead_effect
  | toggleStar key id =>
    cases moved
    exact editMessages_effect id fun _ => rfl
  | dismissScamWarning key id =>
    cases moved
    exact editMessages_effect id fun _ => rfl
  | signIn | connect | disconnect | close | deliver | saveMedia =>
    cases moved
    exact .refl _

/-- An action that reads or writes what is saved. -/
def touchesDisk : Action → Prop
  | .start | .save .. => True
  | action => replaces action

instance (action : Action) : Decidable (touchesDisk action) := by
  cases action <;> unfold touchesDisk <;> infer_instance

theorem touchesDisk_of_replaces {action : Action} (replaced : replaces action) :
    touchesDisk action := by
  cases action with
  | hydrated | kill | reset => exact trivial
  | _ => exact replaced.elim

/-- What is saved, and the load that waits for it. -/
structure SameDisk (p p' : Phone) : Prop where
  messages : p'.messages = p.messages
  loading : p'.loading = p.loading
  started : p'.started = p.started

namespace Phone

theorem sendTexts_sameDisk (p : Phone) (outbounds : List Outbound) (former : Bool) :
    SameDisk p (p.sendTexts outbounds former) := by
  unfold sendTexts
  split <;> exact ⟨rfl, rfl, rfl⟩

theorem handOver_sameDisk (p : Phone) (out : List Sent) : SameDisk p (p.handOver out) := by
  unfold handOver
  split <;> exact ⟨rfl, rfl, rfl⟩

theorem received_sameDisk (p : Phone) (m : Inbound) (former : Bool) :
    SameDisk p (p.received m former) := by
  unfold received
  split <;> exact ⟨rfl, rfl, rfl⟩

theorem mediaUploaded_sameDisk (p : Phone) (task : Pending Upload) (reply : Option MediaReference) :
    SameDisk p (p.mediaUploaded task reply) := by
  unfold mediaUploaded
  dsimp only
  split
  · exact ⟨rfl, rfl, rfl⟩
  · obtain ⟨messages, loading, started⟩ := sendTexts_sameDisk _ _ task.former
    exact ⟨messages, loading, started⟩

end Phone

theorem step_sameDisk {p p' : Phone} {action : Action} (moved : p.step action = some p')
    (apart : ¬ touchesDisk action) : SameDisk p p' := by
  cases action with
  | start | save | hydrated | kill | reset => exact (apart trivial).elim
  | decrypted task outcome =>
    obtain ⟨-, same⟩ := Option.ite_none_right_eq_some.mp moved
    cases same
    cases outcome with
    | none => exact ⟨rfl, rfl, rfl⟩
    | some o =>
      obtain ⟨messages, loading, started⟩ := Phone.received_sameDisk
        { p with decrypts := p.decrypts.erase task } (task.work.inbound o) task.former
      exact ⟨messages, loading, started⟩
  | transmit task =>
    obtain ⟨-, same⟩ := Option.ite_none_right_eq_some.mp moved
    cases same
    exact Phone.handOver_sameDisk ..
  | send key text now =>
    obtain ⟨-, same⟩ := Option.ite_none_right_eq_some.mp moved
    cases same
    obtain ⟨messages, loading, started⟩ := Phone.sendTexts_sameDisk
      { p with store := (p.store.send p.accountId key text now).1 }
      (p.store.send p.accountId key text now).2 false
    exact ⟨messages, loading, started⟩
  | uploaded task reply =>
    obtain ⟨-, same⟩ := Option.ite_none_right_eq_some.mp moved
    cases same
    obtain ⟨messages, loading, started⟩ := Phone.mediaUploaded_sameDisk
      { p with uploads := p.uploads.erase task } task reply
    exact ⟨messages, loading, started⟩
  | sendTyping key typing =>
    cases moved
    exact Phone.sendTexts_sameDisk ..
  | markRead key =>
    cases moved
    obtain ⟨messages, loading, started⟩ := Phone.handOver_sameDisk
      { p with store := (p.store.markRead key).1 }
      ((p.store.markRead key).2.map fun (r : Value × Text) => .readReceipt r.1 r.2)
    exact ⟨messages, loading, started⟩
  | sendEnded | ensurePeer | sendMedia | downloaded | mediaSaved =>
    obtain ⟨-, same⟩ := Option.ite_none_right_eq_some.mp moved
    cases same
    exact ⟨rfl, rfl, rfl⟩
  | _ =>
    cases moved
    exact ⟨rfl, rfl, rfl⟩

end Hwfa.ConversationPhone
