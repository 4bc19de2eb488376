import Hwfa.ConversationRouting

/-!
What `receive` makes of a text, and when typed text arrives as it was typed.

Typed text and the five control formats share one channel, and `send` escapes
nothing.  A text that has a marker is taken for what the marker says: it is
swallowed, or becomes a signal, a group message or an attachment.  Only an
attachment's marker is harmless when what stands behind it does not parse.
-/

namespace Hwfa.ConversationInbound

open Hwfa.Json Hwfa.Maps Hwfa.Machines Hwfa.ConversationStore Hwfa.ConversationRouting

/-! ### Threads -/

def getMessages (s : Store) (key : Key) : List ChatMessage :=
  (s.convs.lookup key).elim [] (·.messages)

/-- How many messages of a thread are unread. -/
def unreadOf (s : Store) (key : Key) : Nat := (s.convs.lookup key).elim 0 (·.unread)

theorem ensure_messages (s : Store) (key : Key) : (s.ensure key).messages = getMessages s key := by
  unfold Store.ensure getMessages
  cases s.convs.lookup key <;> rfl

theorem ensure_unread (s : Store) (key : Key) : (s.ensure key).unread = unreadOf s key := by
  unfold Store.ensure unreadOf
  cases s.convs.lookup key <;> rfl

theorem lookup_set (s : Store) (key other : Key) (conv : Conversation) :
    (s.set key conv).convs.lookup other = if other = key then some conv else s.convs.lookup other :=
  FinMap.lookup_put_apply ..

theorem getMessages_set (s : Store) (key other : Key) (conv : Conversation) :
    getMessages (s.set key conv) other =
      if other = key then conv.messages else getMessages s other := by
  unfold getMessages
  rw [lookup_set]
  split <;> rfl

/-- A thread that is stored back, or opened without a message, has the messages
it had. -/
theorem getMessages_set_ensure (s : Store) (key other : Key) :
    getMessages (s.set key (s.ensure key)) other = getMessages s other := by
  rw [getMessages_set]
  split
  · next same => rw [same, ensure_messages]
  · rfl

/-- The first message of an id is changed. -/
def changeFirst (messages : List ChatMessage) (messageId : Text)
    (fields : ChatMessage → ChatMessage) : List ChatMessage :=
  (messages.findIdx? fun m => m.id = messageId).elim messages fun i => messages.modify i fields

theorem getMessages_patch (s : Store) (key other : Key) (messageId : Text)
    (fields : ChatMessage → ChatMessage) :
    getMessages (s.patch key messageId fields) other =
      if other = key then changeFirst (getMessages s key) messageId fields
      else getMessages s other := by
  unfold Store.patch changeFirst
  cases found : s.convs.lookup key with
  | none =>
    have nothing : getMessages s key = [] := by rw [getMessages, found, Option.elim_none]
    by_cases same : other = key
    · rw [if_pos same, same, nothing]
      rfl
    · rw [if_neg same]
  | some conv =>
    have there : getMessages s key = conv.messages := by rw [getMessages, found, Option.elim_some]
    rw [there]
    dsimp only
    cases conv.messages.findIdx? fun m => m.id = messageId with
    | none =>
      by_cases same : other = key
      · rw [if_pos same, same]
        exact there
      · rw [if_neg same]
    | some i => exact getMessages_set s key other _

theorem map_modify {β : Type} (messages : List ChatMessage) (i : Nat)
    {fields : ChatMessage → ChatMessage} {f : ChatMessage → β} (kept : ∀ m, f (fields m) = f m) :
    (messages.modify i fields).map f = messages.map f := by
  apply List.ext_getElem?
  intro j
  rw [List.getElem?_map, List.getElem?_map, List.getElem?_modify]
  cases messages[j]? with
  | none => rfl
  | some m =>
    by_cases here : i = j
    · simp [here, kept]
    · simp [here]

/-- A patch keeps what its fields keep. -/
theorem map_changeFirst {β : Type} (messages : List ChatMessage) (messageId : Text)
    {fields : ChatMessage → ChatMessage} {f : ChatMessage → β} (kept : ∀ m, f (fields m) = f m) :
    (changeFirst messages messageId fields).map f = messages.map f := by
  unfold changeFirst
  cases messages.findIdx? fun m => m.id = messageId with
  | none => rfl
  | some i => exact map_modify messages i kept

/-- One message is appended to a thread, which counts it as unread; every other
thread is the one it was. -/
structure Appends (s s' : Store) (key : Key) (message : ChatMessage) : Prop where
  messages : getMessages s' key = getMessages s key ++ [message]
  unread : unreadOf s' key = unreadOf s key + 1
  others : ∀ other, other ≠ key → s'.convs.lookup other = s.convs.lookup other
  there : (s'.convs.lookup key).isSome
  peer : (s'.ensure key).peerUserId = (s.ensure key).peerUserId
  counter : s'.counter = s.counter + 1

theorem appends_put {s s' : Store} {key : Key} {conv : Conversation} {message : ChatMessage}
    (stored : s'.convs = s.convs.put key conv)
    (messages : conv.messages = (s.ensure key).messages ++ [message])
    (unread : conv.unread = (s.ensure key).unread + 1)
    (peer : conv.peerUserId = (s.ensure key).peerUserId) (counter : s'.counter = s.counter + 1) :
    Appends s s' key message := by
  have found : s'.convs.lookup key = some conv := by
    rw [stored, FinMap.lookup_put_apply, if_pos rfl]
  exact
    { messages := by rw [getMessages, found, Option.elim_some, messages, ensure_messages]
      unread := by rw [unreadOf, found, Option.elim_some, unread, ensure_unread]
      others := fun other apart => by rw [stored, FinMap.lookup_put_apply, if_neg apart]
      there := by rw [found]; rfl
      peer := by rw [Store.ensure, found, Option.getD_some, peer]
      counter }

/-! ### What a text is taken for -/

/-- A text that is a message of its own: without a marker, or with that of an
attachment and nothing behind it that parses. -/
def IsPlain (text : Text) : Prop :=
  ¬ isTypingBody text ∧ ¬ isCallBody text ∧ ¬ isGroupBody text ∧ ¬ isStatusBody text ∧
    ¬ (parseMediaBody text).truthy

instance (text : Text) : Decidable (IsPlain text) := by
  unfold IsPlain
  infer_instance

/-- A text that is looked at for its text or its attachment. -/
def IsChat (text : Text) : Prop :=
  ¬ isTypingBody text ∧ ¬ isCallBody text ∧ ¬ isGroupBody text ∧ ¬ isStatusBody text

instance (text : Text) : Decidable (IsChat text) := by
  unfold IsChat
  infer_instance

/-- What comes of a message, by what its text is taken for. -/
inductive Taken (s : Store) (me : Option Text) (m : Inbound) : Reception → Prop where
  /-- no thread hears of it: a signal, or a marker before nothing that parses -/
  | aside (r : Reception) : r.store.convs = s.convs → r.store.counter = s.counter →
      r.threw = false → ¬ IsChat m.text →
      (isGroupBody m.text → ¬ (parseGroupBody m.text).truthy) → Taken s me m r
  | group : isGroupBody m.text → (parseGroupBody m.text).truthy →
      Taken s me m (s.receiveGroup me m (parseGroupBody m.text))
  | chat : IsChat m.text → Taken s me m (s.receiveChat m)

theorem receive_taken (s : Store) (me : Option Text) (m : Inbound) :
    Taken s me m (s.receive me m) := by
  unfold Store.receive
  dsimp only
  split
  · next typing =>
    have apart : ¬ IsChat m.text := fun chat => chat.1 typing
    have ungrouped : isGroupBody m.text → ¬ (parseGroupBody m.text).truthy := fun grouped =>
      absurd (typing.symm.trans (not_typing_of_group grouped)) (by decide)
    split
    · exact .aside _ rfl rfl rfl apart ungrouped
    · exact .aside _ rfl rfl rfl apart ungrouped
  · next untyped =>
    split
    · next call =>
      exact .aside _ rfl rfl rfl (fun chat => chat.2.1 call) fun grouped =>
        absurd (call.symm.trans (not_call_of_group grouped)) (by decide)
    · next uncalled =>
      split
      · next grouped =>
        split
        · next payload => exact .group grouped payload
        · next payload =>
          exact .aside _ rfl rfl rfl (fun chat => chat.2.2.1 grouped) fun _ => payload
      · next ungrouped =>
        split
        · next status =>
          exact .aside _ rfl rfl rfl (fun chat => chat.2.2.2 status) fun grouped =>
            absurd grouped ungrouped
        · next unstated => exact .chat ⟨untyped, uncalled, ungrouped, unstated⟩

/-- The message that a group body becomes. -/
def groupMessage (s : Store) (m : Inbound) (payload : Value) : ChatMessage where
  id := unit 'm' :: decimal s.counter
  text := payload.get "text"
  mine := false
  at_ := m.receivedAt
  envelopeId := m.envelopeId.filter (· ≠ [])
  verdict := m.verdict
  senderId := some m.fromUserId

/-- The message that a text becomes. -/
def plainMessage (s : Store) (m : Inbound) : ChatMessage where
  id := unit 'm' :: decimal s.counter
  text := .string m.text
  mine := false
  at_ := m.receivedAt
  envelopeId := m.envelopeId.filter (· ≠ [])
  verdict := m.verdict

/-- The message that an attachment becomes. -/
def mediaMessage (s : Store) (m : Inbound) (label : Text) : ChatMessage :=
  let mediaRef := parseMediaBody m.text
  { id := unit 'm' :: decimal s.counter
    text := .string label
    mine := false
    at_ := m.receivedAt
    envelopeId := m.envelopeId.filter (· ≠ [])
    media := some mediaRef
    mediaMime := mediaRef.get "mime"
    mediaName := mediaRef.get "name"
    mediaSize := mediaRef.get "size"
    mediaState := if (isImageMime (mediaRef.get "mime")).getD false then some .loading else none }

theorem receiveGroup_threw {s : Store} {me : Option Text} {m : Inbound} {payload : Value}
    (read : Store.roster me (payload.get "members") = none) :
    let key := s.keyOf (payload.get "gid")
    (s.receiveGroup me m payload).threw = true ∧
      (s.receiveGroup me m payload).store.convs = (s.set key (s.ensure key)).convs ∧
      (s.receiveGroup me m payload).store.counter = s.counter := by
  unfold Store.receiveGroup
  rw [read]
  exact ⟨rfl, rfl, rfl⟩

/-- A group message is appended to the thread that its payload names. -/
theorem receiveGroup_appends {s : Store} {me : Option Text} {m : Inbound} {payload members : Value}
    (read : Store.roster me (payload.get "members") = some members) :
    (s.receiveGroup me m payload).threw = false ∧
      Appends s (s.receiveGroup me m payload).store (s.keyOf (payload.get "gid"))
        (groupMessage s m payload) := by
  unfold Store.receiveGroup
  rw [read]
  exact ⟨rfl, appends_put rfl rfl rfl rfl rfl⟩

theorem receiveChat_plain {s : Store} {m : Inbound} (plain : ¬ (parseMediaBody m.text).truthy) :
    (s.receiveChat m).threw = false ∧ (s.receiveChat m).handoff = none ∧
      Appends s (s.receiveChat m).store (.user m.fromUserId) (plainMessage s m) := by
  unfold Store.receiveChat
  dsimp only
  rw [if_neg plain]
  exact ⟨rfl, rfl, appends_put rfl rfl rfl rfl rfl⟩

theorem receiveChat_threw {s : Store} {m : Inbound} (media : (parseMediaBody m.text).truthy)
    (unlabelled : mediaLabel ((parseMediaBody m.text).get "mime")
      ((parseMediaBody m.text).get "name") = none) :
    let key := Key.user m.fromUserId
    (s.receiveChat m).threw = true ∧
      (s.receiveChat m).store.convs = (s.set key (s.ensure key)).convs ∧
      (s.receiveChat m).store.counter = s.counter := by
  unfold Store.receiveChat
  dsimp only
  rw [if_pos media, unlabelled]
  exact ⟨rfl, rfl, rfl⟩

/-- An attachment is appended; an image is then marked as loading. -/
theorem receiveChat_media {s : Store} {m : Inbound} {label : Text}
    (media : (parseMediaBody m.text).truthy)
    (labelled : mediaLabel ((parseMediaBody m.text).get "mime")
      ((parseMediaBody m.text).get "name") = some label) :
    (s.receiveChat m).threw = false ∧
      ∃ t, Appends s t (.user m.fromUserId) (mediaMessage s m label) ∧
        ((s.receiveChat m).store = t ∨
          (mediaMessage s m label).mediaState = some .loading ∧
          (s.receiveChat m).store =
            t.loadMedia (.user m.fromUserId) (mediaMessage s m label).id) := by
  unfold Store.receiveChat mediaMessage
  dsimp only
  rw [if_pos media, labelled]
  dsimp only
  cases image : (isImageMime ((parseMediaBody m.text).get "mime")).getD false with
  | false =>
    refine ⟨rfl, _, ?_, .inl rfl⟩
    exact appends_put rfl rfl rfl rfl rfl
  | true =>
    refine ⟨rfl, _, ?_, .inr ⟨rfl, rfl⟩⟩
    exact appends_put rfl rfl rfl rfl rfl

/-! ### Typed text -/

/-- White space, line ends included. -/
def isSpace (u : UInt16) : Bool :=
  u ∈ [9, 10, 11, 12, 13, 32, 0xA0, 0x1680, 0x2028, 0x2029, 0x202F, 0x205F, 0x3000, 0xFEFF] ||
    (0x2000 ≤ u && u ≤ 0x200A)

def trim (t : Text) : Text := ((t.dropWhile isSpace).reverse.dropWhile isSpace).reverse

/-- What the chat screen sends of a draft, if anything. -/
def handleSend (draft : Text) : Option Text :=
  let text := trim draft
  if text = [] then none else some text

/-- What goes to the typing store, the call manager or the status store. -/
def isSignal : Handoff → Bool
  | .typing .. | .call .. | .status .. => true
  | .download .. => false

/-- Exactly one message is gained, in the thread, and it has the text; no typing,
call, group or status state changes. -/
structure Gains (s : Store) (r : Reception) (key : Key) (text : Text) : Prop where
  gained : ∃ message : ChatMessage, message.text = .string text ∧
    getMessages r.store key = getMessages s key ++ [message]
  others : ∀ other, other ≠ key → getMessages r.store other = getMessages s other
  groups : groupOf r.store = groupOf s
  signals : ∀ handoff ∈ r.handoff, ¬ isSignal handoff

/-- What a user's text comes to on the other side, which receives it unchanged. -/
def ArrivesAsTyped (s r : Store) (sender receiver text : Text) (now receivedAt : Nat)
    (envelopeId : Option Text) (verdict : Option ScamVerdict) : Prop :=
  ∃ outbound, (s.send (some sender) (.user receiver) text now).2 = [outbound] ∧
    outbound.recipient = .string receiver ∧
    let m : Inbound :=
      { fromUserId := sender, text := outbound.body, receivedAt, envelopeId, verdict }
    Gains r (r.receive (some receiver) m) (.user sender) text

/-- In a chat of two, the text is what goes out. -/
theorem send_direct {s : Store} (me : Option Text) {peer : Key} (text : Text) (now : Nat)
    (direct : groupOf s peer = none) :
    ∃ outbound, (s.send me peer text now).2 = [outbound] ∧ outbound.recipient = peer.value ∧
      outbound.body = text := by
  rw [← ensure_group] at direct
  unfold Store.send
  dsimp only
  rw [direct]
  exact ⟨_, rfl, rfl, rfl⟩

theorem Taken.chat_eq {s : Store} {me : Option Text} {m : Inbound} {r : Reception}
    (taken : Taken s me m r) (chat : IsChat m.text) : r = s.receiveChat m := by
  cases taken with
  | aside _ _ _ _ apart _ => exact absurd chat apart
  | group grouped _ => exact absurd grouped chat.2.2.1
  | chat _ => rfl

/-- The label of an attachment that is only a file. -/
theorem fileLabel_pictogram {name : Value} {label : Text}
    (labelled : (do
      let name ← toText (if name.nullish then .string (utf16 "File") else name)
      return utf16 "📎 " ++ name) = some label) : label.head? ≠ MEDIA_PREFIX.head? := by
  obtain ⟨name, -, same⟩ := Option.bind_eq_some_iff.mp labelled
  cases same
  exact ne_of_eq_of_ne (List.head?_append_of_ne_nil _ (by decide +kernel)) (by decide +kernel)

/-- A label begins with a pictogram, as no attachment's body does. -/
theorem mediaLabel_pictogram {mime name : Value} {label : Text}
    (labelled : mediaLabel mime name = some label) : label.head? ≠ MEDIA_PREFIX.head? := by
  unfold mediaLabel at labelled
  obtain ⟨image, -, labelled⟩ := Option.bind_eq_some_iff.mp labelled
  clear * - labelled
  dsimp only at labelled
  cases image with
  | true =>
    cases labelled
    decide +kernel
  | false =>
    rw [if_neg Bool.false_ne_true] at labelled
    split at labelled
    · next t =>
      by_cases video : (utf16 "video/").isPrefixOf t
      · rw [if_pos video] at labelled
        cases labelled
        decide +kernel
      · rw [if_neg video] at labelled
        by_cases audio : (utf16 "audio/").isPrefixOf t
        · rw [if_pos audio] at labelled
          cases labelled
          decide +kernel
        · rw [if_neg audio] at labelled
          exact fileLabel_pictogram labelled
    · next nullish =>
      by_cases absent : mime.nullish
      · rw [if_pos absent] at labelled
        exact fileLabel_pictogram labelled
      · rw [if_neg absent] at labelled
        cases labelled

theorem media_marker {text : Text} (media : (parseMediaBody text).truthy) :
    text.head? = MEDIA_PREFIX.head? := by
  unfold parseMediaBody parseBody at media
  split at media
  · next marked =>
    obtain ⟨rest, rfl⟩ := List.isPrefixOf_iff_prefix.mp marked
    exact List.head?_append_of_ne_nil _ (by decide +kernel)
  · cases media

/-- A text that is no message of its own gains the thread no message of that
text, or makes the thread a group. -/
theorem plain_of_gains {s : Store} {me : Option Text} {m : Inbound} {r : Reception}
    (taken : Taken s me m r) (direct : groupOf s (.user m.fromUserId) = none)
    (gains : Gains s r (.user m.fromUserId) m.text) : IsPlain m.text := by
  obtain ⟨message, typed, gained⟩ := gains.gained
  have grown : getMessages r.store (.user m.fromUserId) ≠ getMessages s (.user m.fromUserId) := by
    rw [gained]
    simp
  cases taken with
  | aside _ kept =>
    refine absurd ?_ grown
    rw [getMessages, kept]
    rfl
  | group grouped payload =>
    cases read : Store.roster me ((parseGroupBody m.text).get "members") with
    | none =>
      refine absurd ?_ grown
      rw [getMessages, (receiveGroup_threw read).2.1]
      exact getMessages_set_ensure ..
    | some members =>
      have became := groupOf_receiveGroup s me m (parseGroupBody m.text) (.user m.fromUserId)
      rw [gains.groups, direct, read] at became
      by_cases named : Key.user m.fromUserId = s.keyOf ((parseGroupBody m.text).get "gid")
      · dsimp only at became
        rw [if_pos named] at became
        cases became
      · refine absurd ?_ grown
        rw [getMessages, (receiveGroup_appends read).2.others _ named]
        rfl
  | chat chat =>
    refine ⟨chat.1, chat.2.1, chat.2.2.1, chat.2.2.2, fun media => ?_⟩
    cases labelled : mediaLabel ((parseMediaBody m.text).get "mime")
        ((parseMediaBody m.text).get "name") with
    | none =>
      refine absurd ?_ grown
      rw [getMessages, (receiveChat_threw media labelled).2.1]
      exact getMessages_set_ensure ..
    | some label =>
      obtain ⟨-, t, appended, became⟩ := receiveChat_media media labelled
      have texts : (getMessages (s.receiveChat m).store (.user m.fromUserId)).map (·.text) =
          (getMessages t (.user m.fromUserId)).map (·.text) := by
        rcases became with same | ⟨-, same⟩
        · rw [same]
        · rw [same, Store.loadMedia, getMessages_patch, if_pos rfl]
          exact map_changeFirst _ _ fun _ => rfl
      rw [gained, appended.messages, List.map_append, List.map_append] at texts
      have same : message.text = .string label :=
        (List.cons.inj (List.append_cancel_left texts)).1
      rw [typed] at same
      cases same
      exact mediaLabel_pictogram labelled (media_marker media)

theorem gains_of_arrives {s r : Store} {sender receiver text : Text} {now receivedAt : Nat}
    {envelopeId : Option Text} {verdict : Option ScamVerdict}
    (direct : groupOf s (.user receiver) = none)
    (arrives : ArrivesAsTyped s r sender receiver text now receivedAt envelopeId verdict) :
    Gains r (r.receive (some receiver)
      { fromUserId := sender, text, receivedAt, envelopeId, verdict }) (.user sender) text := by
  obtain ⟨outbound, sent, -, body⟩ := send_direct (some sender) text now direct
  obtain ⟨other, same, -, gains⟩ := arrives
  rw [sent] at same
  cases same
  rwa [body] at gains

/-- Between two users in a chat of two, a text arrives as it was typed exactly
when it is a message of its own. -/
theorem typed_text_arrives_iff_plain {s r : Store} {sender receiver : Text}
    (direct : groupOf s (.user receiver) = none) (direct' : groupOf r (.user sender) = none)
    (text : Text) (now receivedAt : Nat) (envelopeId : Option Text)
    (verdict : Option ScamVerdict) :
    ArrivesAsTyped s r sender receiver text now receivedAt envelopeId verdict ↔ IsPlain text := by
  constructor
  · intro arrives
    exact plain_of_gains (receive_taken r _ _) direct' (gains_of_arrives direct arrives)
  · intro plain
    obtain ⟨outbound, sent, recipient, body⟩ := send_direct (some sender) text now direct
    refine ⟨outbound, sent, recipient, ?_⟩
    rw [body]
    have taken := receive_taken r (some receiver)
      { fromUserId := sender, text, receivedAt, envelopeId, verdict }
    have same := taken.chat_eq ⟨plain.1, plain.2.1, plain.2.2.1, plain.2.2.2.1⟩
    obtain ⟨-, handoff, appended⟩ := receiveChat_plain (s := r)
      (m := { fromUserId := sender, text, receivedAt, envelopeId, verdict }) plain.2.2.2.2
    dsimp only
    rw [same]
    exact
      { gained := ⟨_, rfl, appended.messages⟩
        others := fun other apart => by rw [getMessages, appended.others other apart, getMessages]
        groups := groupOf_receiveChat r _
        signals := by simp [handoff] }

/-- One side's store, which has a thread with the other. -/
def knowing (userId : String) : Store := ({} : Store).ensurePeer (.user (utf16 userId)) none

/-- A media marker with nothing behind it arrives. -/
theorem bare_media_marker_arrives :
    ArrivesAsTyped (knowing "bob") (knowing "alice") (utf16 "alice") (utf16 "bob")
      (utf16 "\x01hwfa-media: is what it says") 1 2 none none :=
  (typed_text_arrives_iff_plain (by decide +kernel) (by decide +kernel) _ 1 2 none none).mpr
    (by decide +kernel)

/-- alice types a text that begins like a typing signal: bob never sees it. -/
theorem typed_marker_is_swallowed :
    handleSend (utf16 "hwfa-typing: is shown") = some (utf16 "hwfa-typing: is shown") ∧
      groupOf (knowing "bob") (.user (utf16 "bob")) = none ∧
      groupOf (knowing "alice") (.user (utf16 "alice")) = none ∧
      ¬ ArrivesAsTyped (knowing "bob") (knowing "alice") (utf16 "alice") (utf16 "bob")
        (utf16 "hwfa-typing: is shown") 1 2 none none := by
  refine ⟨by decide +kernel, by decide +kernel, by decide +kernel, fun arrives => ?_⟩
  have gains := gains_of_arrives (by decide +kernel) arrives
  have plain := plain_of_gains (receive_taken _ _ _) (by decide +kernel) gains
  exact plain.1 (by decide +kernel)

end Hwfa.ConversationInbound
