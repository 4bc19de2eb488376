import Hwfa.Json
import Hwfa.Maps

/-!
The app's conversation store (`apps/mobile/src/store/conversations.ts`), with the
wire formats that ride its text path (`group/wire.ts`, `typing/wire.ts`,
`call/wire.ts`, `store/statuses.ts`, and `media/media.ts` of the client).

Every inbound body is dispatched on its marker.  What stands behind the marker
is whatever `JSON.parse` makes of it: nothing checks its shape, so the fields
that are taken from a payload are `Value`s, and reading one may throw.  A thread
is found by a `Key`: two keys are one when `Map` takes them for one, so an
object is its own key only.

What a method does at once is a function here; what it starts (an upload, a
download) ends in a function of its own.  The listeners, the timer that saves
the store and the store's snapshot in React are left out.
-/

namespace Hwfa.ConversationStore

open Hwfa.Json Hwfa.Maps

/-! ### Wire formats -/

def TYPING_PREFIX : Text := utf16 "hwfa-typing:"
def CALL_PREFIX : Text := utf16 "hwfa-call:"
def GROUP_PREFIX : Text := utf16 "hwfa-group:"
def STATUS_PREFIX : Text := utf16 "hwfa-status:"
def MEDIA_PREFIX : Text := utf16 "\x01hwfa-media:"

def hasMarker (marker body : Text) : Bool := marker.isPrefixOf body

/-- What stands behind the marker, `null` if it is not JSON. -/
def parseBody (marker body : Text) : Value :=
  if hasMarker marker body then (parse (body.drop marker.length)).getD .null else .null

def buildBody (marker : Text) (payload : Value) : Text := marker ++ (stringify payload).getD []

def isTypingBody (body : Text) : Bool := hasMarker TYPING_PREFIX body
def parseTypingBody (body : Text) : Value := parseBody TYPING_PREFIX body

def isCallBody (body : Text) : Bool := hasMarker CALL_PREFIX body
def parseCallBody (body : Text) : Value := parseBody CALL_PREFIX body

def isGroupBody (body : Text) : Bool := hasMarker GROUP_PREFIX body
def parseGroupBody (body : Text) : Value := parseBody GROUP_PREFIX body

def isStatusBody (body : Text) : Bool := hasMarker STATUS_PREFIX body
def parseStatusBody (body : Text) : Value := parseBody STATUS_PREFIX body

def isMediaBody (body : Text) : Bool := hasMarker MEDIA_PREFIX body
def parseMediaBody (body : Text) : Value := parseBody MEDIA_PREFIX body

structure GroupPayload where
  gid : Value
  name : Value
  members : Value
  text : Value

def buildGroupBody (payload : GroupPayload) : Text :=
  buildBody GROUP_PREFIX (.object
    [(utf16 "gid", payload.gid), (utf16 "name", payload.name),
      (utf16 "members", payload.members), (utf16 "text", payload.text)])

/-- Without a `gid` in a chat of two. -/
def buildTypingBody (typing : Bool) (gid : Value) : Text :=
  buildBody TYPING_PREFIX (.object [(utf16 "typing", .boolean typing), (utf16 "gid", gid)])

def buildMediaBody (keyMaterial locator : Value) : Text :=
  let members := match keyMaterial with
    | .object members => members
    | _ => []
  buildBody MEDIA_PREFIX (.object (setMember members (utf16 "locator") locator))

def digit36 (n : Nat) : UInt16 :=
  if n < 10 then unit '0' + UInt16.ofNat n else unit 'a' + UInt16.ofNat (n - 10)

/-- The lowest `fuel` digits to the base 36. -/
def digits36 : Nat → Nat → Text
  | 0, _ => []
  | fuel + 1, n => if n < 36 then [digit36 n] else digits36 fuel (n / 36) ++ [digit36 (n % 36)]

/-- `toString(36)`; a number has no more such digits than bits. -/
def base36 (n : Nat) : Text := digits36 (n.log2 + 1) n

def newGroupId (now : Nat) (random : Text) : Text :=
  utf16 "group-" ++ base36 now ++ unit '-' :: random

/-! ### Conversations -/

inductive MessageStatus where
  | sending
  | sent
  | delivered
  | read
  deriving DecidableEq

def STATUS_RANK : MessageStatus → Nat
  | .sending => 0
  | .sent => 1
  | .delivered => 2
  | .read => 3

structure ScamVerdict where
  flagged : Bool
  category : Option Text
  score : Number
  modelVersion : Text
  deriving DecidableEq

inductive MediaState where
  | loading
  | ready
  | error
  deriving DecidableEq

structure ChatMessage where
  id : Text
  text : Value
  mine : Bool
  at_ : Nat
  clientRef : Option Text := none
  status : Option MessageStatus := none
  envelopeId : Option Text := none
  readSent : Bool := false
  verdict : Option ScamVerdict := none
  dismissed : Bool := false
  media : Option Value := none
  mediaMime : Value := .undefined
  mediaName : Value := .undefined
  mediaSize : Value := .undefined
  mediaUri : Option Text := none
  mediaState : Option MediaState := none
  mediaSaved : Bool := false
  starred : Bool := false
  senderId : Option Text := none

structure GroupInfo where
  name : Value
  members : Value

/-- A thread; it is a group if `group` is present. -/
structure Conversation where
  peerUserId : Value
  peerPhone : Option Text := none
  messages : List ChatMessage := []
  unread : Nat := 0
  lastAt : Nat := 0
  group : Option GroupInfo := none
  peerIdentityB64 : Option Text := none

/-- What a `Map` takes for one key.  An array or an object is told apart from
every other one by its `reference`. -/
inductive Key where
  | primitive (p : Primitive)
  | object (reference : Nat) (value : Value)
  deriving DecidableEq

def Key.value : Key → Value
  | .primitive p => .primitive p
  | .object _ value => value

/-- The thread with a user. -/
def Key.user (userId : Text) : Key := .primitive (.string userId)

structure Store where
  convs : FinMap Key Conversation := ∅
  listSnapshot : List Key := []
  counter : Nat := 0
  /-- how many arrays and objects have been parsed -/
  references : Nat := 0

/-- A `sendText` of the client. -/
structure Outbound where
  recipient : Value
  body : Text
  clientRef : Option Text := none

/-- `getClient().accountId`, `null` while signed out. -/
def accountId (me : Option Text) : Value := me.elim .null .string

namespace Store

/-- The conversation under a key, a new one if there is none. -/
def ensure (s : Store) (key : Key) : Conversation :=
  (s.convs.lookup key).getD { peerUserId := key.value }

def set (s : Store) (key : Key) (conv : Conversation) : Store :=
  { s with convs := s.convs.put key conv }

/-- The most recent conversation first. -/
def rebuild (s : Store) : Store :=
  let newestFirst (a b : Σ _ : Key, Conversation) : Bool := b.2.lastAt ≤ a.2.lastAt
  { s with listSnapshot := (s.convs.entries.mergeSort newestFirst).map (·.1) }

/-- A new message, and the store that has counted it. -/
def make (s : Store) (text : Value) (mine : Bool) (at_ : Nat) : ChatMessage × Store :=
  ({ id := unit 'm' :: decimal s.counter, text, mine, at_ }, { s with counter := s.counter + 1 })

/-- The key that a parsed value is. -/
def keyOf (s : Store) : Value → Key
  | .primitive p => .primitive p
  | value => .object s.references value

/-! ### What the app does -/

def setPeerIdentity (s : Store) (peerUserId : Key) (identityB64 : Text) : Store :=
  match s.convs.lookup peerUserId with
  | some conv =>
    if conv.peerIdentityB64 = some identityB64 then s
    else (s.set peerUserId { conv with peerIdentityB64 := some identityB64 }).rebuild
  | none => s

def ensurePeer (s : Store) (peerUserId : Key) (peerPhone : Option Text) : Store :=
  let conv := s.ensure peerUserId
  match peerPhone.filter (· ≠ []) with
  | some phone =>
    if conv.peerPhone = some phone then s.set peerUserId conv
    else (s.set peerUserId { conv with peerPhone := some phone }).rebuild
  | none => s.set peerUserId conv

/-- The members of a group other than ourselves; a roster that is not an array
has no `filter`. -/
def others (me : Option Text) : Value → Option (List Value)
  | .array members => some (members.filter (· ≠ accountId me))
  | _ => none

/-- `[...new Set(members)]`: no two parsed objects are the same. -/
def distinct : List Value → List Value → List Value
  | _, [] => []
  | seen, .primitive p :: rest =>
    if .primitive p ∈ seen then distinct seen rest
    else .primitive p :: distinct (.primitive p :: seen) rest
  | seen, v :: rest => v :: distinct seen rest

/-- The roster that goes out with a group message: ourselves among the members. -/
def wireMembers (me : Option Text) (members : Value) : Value :=
  match (accountId me).truthy, members with
  | true, .array list => .array (distinct [] (list ++ [accountId me]))
  | _, members => members

/-- Fans a group message out to every member. -/
def sendGroup (s : Store) (me : Option Text) (key : Key) (conv : Conversation) (group : GroupInfo)
    (text : Text) (now : Nat) : Store × List Outbound :=
  let (message, s) := s.make (.string text) true now
  let s := (s.set key { conv with messages := conv.messages ++ [message], lastAt := now }).rebuild
  let body := buildGroupBody
    { gid := conv.peerUserId, name := group.name
      members := wireMembers me group.members, text := .string text }
  (s, ((others me group.members).getD []).map fun m => { recipient := m, body })

/-- Correlates status updates with a message. -/
def clientRef (s : Store) (now : Nat) : Text :=
  unit 'c' :: decimal s.counter ++ unit '-' :: base36 now

def send (s : Store) (me : Option Text) (peerUserId : Key) (text : Text) (now : Nat) :
    Store × List Outbound :=
  let conv := s.ensure peerUserId
  match conv.group with
  | some group => s.sendGroup me peerUserId conv group text now
  | none =>
    let (message, s) := s.make (.string text) true now
    let ref := s.clientRef now
    let message := { message with clientRef := some ref, status := some .sending }
    let conv := { conv with messages := conv.messages ++ [message], lastAt := now }
    ((s.set peerUserId conv).rebuild,
      [{ recipient := peerUserId.value, body := text, clientRef := some ref }])

def createGroup (s : Store) (gid name : Text) (members : List Text) (now : Nat) : Store :=
  let conv := s.ensure (.user gid)
  let group := { name := .string name, members := .array (members.map .string) }
  (s.set (.user gid) { conv with group := some group, lastAt := now }).rebuild

/-- Only where a session is established: the thread has a message. -/
def sendTyping (s : Store) (me : Option Text) (conversationId : Key) (typing : Bool) :
    List Outbound :=
  match s.convs.lookup conversationId with
  | some conv =>
    if conv.messages = [] then []
    else
      match conv.group with
      | some group =>
        let body := buildTypingBody typing conversationId.value
        ((others me group.members).getD []).map fun m => { recipient := m, body }
      | none => [{ recipient := conversationId.value, body := buildTypingBody typing .undefined }]
  | none => []

/-- Changes one message, if it is there. -/
def patch (s : Store) (peerUserId : Key) (messageId : Text) (fields : ChatMessage → ChatMessage) :
    Store :=
  match s.convs.lookup peerUserId with
  | some conv =>
    match conv.messages.findIdx? fun m => m.id = messageId with
    | some i =>
      (s.set peerUserId { conv with messages := conv.messages.modify i fields }).rebuild
    | none => s
  | none => s

end Store

/-- Whether an attachment can be shown inline; a type that is neither a text nor
falsy has no `startsWith`. -/
def isImageMime (mime : Value) : Option Bool :=
  match mime with
  | .string t => some ((utf16 "image/").isPrefixOf t)
  | v => if v.truthy then none else some false

/-- The label of an attachment, unless it throws. -/
def mediaLabel (mime name : Value) : Option Text := do
  if ← isImageMime mime then return utf16 "📷 Photo"
  let file := do
    let name ← toText (if name.nullish then .string (utf16 "File") else name)
    return utf16 "📎 " ++ name
  match mime with
  | .string t =>
    if (utf16 "video/").isPrefixOf t then return utf16 "🎬 Video"
    else if (utf16 "audio/").isPrefixOf t then return utf16 "🎵 Audio"
    else file
  | v => if v.nullish then file else none

/-- An attachment as it is picked; `uri` is its `data:` form. -/
structure MediaPlaintext where
  size : Nat
  mime : Text
  name : Option Text
  uri : Text

namespace Store

/-- `sendMedia` up to the upload: the store, and the message and reference it
goes on with. -/
def sendMedia (s : Store) (peerUserId : Key) (media : MediaPlaintext) (now : Nat) :
    Store × Text × Text :=
  let conv := s.ensure peerUserId
  let name := media.name.elim .undefined .string
  let label := (mediaLabel (.string media.mime) name).getD []
  let (message, s) := s.make (.string label) true now
  let ref := s.clientRef now
  let image := (utf16 "image/").isPrefixOf media.mime
  let message := { message with
    clientRef := some ref
    status := some .sending
    mediaMime := .string media.mime
    mediaName := name
    mediaSize := .number (.finite (media.size * one))
    mediaUri := if image then some media.uri else none
    mediaState := if image then some .ready else none }
  let conv := { conv with messages := conv.messages ++ [message], lastAt := now }
  ((s.set peerUserId conv).rebuild, message.id, ref)

/-- `sendMedia` goes on with the uploaded reference, or without one. -/
def uploaded (s : Store) (peerUserId : Key) (messageId ref : Text) (reply : Option Value) :
    Store × List Outbound :=
  match reply with
  | some media =>
    (s.patch peerUserId messageId fun m => { m with media := some media },
      [{ recipient := peerUserId.value, body := buildMediaBody media (media.get "locator"),
         clientRef := some ref }])
  | none => (s.patch peerUserId messageId fun m => { m with mediaState := some .error }, [])

/-- `loadMedia` up to the download. -/
def loadMedia (s : Store) (peerUserId : Key) (messageId : Text) : Store :=
  s.patch peerUserId messageId fun m => { m with mediaState := some .loading }

/-- `loadMedia` goes on with the `data:` form of what was downloaded, or without. -/
def loaded (s : Store) (peerUserId : Key) (messageId : Text) (reply : Option Text) : Store :=
  match reply with
  | some uri => s.patch peerUserId messageId fun m =>
      { m with mediaUri := some uri, mediaState := some .ready }
  | none => s.patch peerUserId messageId fun m => { m with mediaState := some .error }

/-- The end of `saveMedia`. -/
def mediaSaved (s : Store) (peerUserId : Key) (messageId : Text) : Store :=
  s.patch peerUserId messageId fun m => { m with mediaSaved := true }

/-- A delivery status, which never goes down; the first conversation with a
message of that reference is the one it is about. -/
def applyStatus (s : Store) (clientRef : Text) (status : MessageStatus) : Store :=
  let about (conv : Conversation) := conv.messages.findIdx? fun m => m.clientRef = some clientRef
  match s.convs.entries.find? fun entry => (about entry.2).isSome with
  | some ⟨key, conv⟩ =>
    let i := (about conv).getD 0
    let current := conv.messages[i]?.bind (·.status)
    if current.any fun before => STATUS_RANK status ≤ STATUS_RANK before then s
    else
      let messages := conv.messages.modify i fun m => { m with status := some status }
      (s.set key { conv with messages }).rebuild
  | none => s

/-- Marks what was received as read: the store, and to whom a receipt was
attempted for which envelope.  A receipt that cannot be sent is not retried. -/
def markRead (s : Store) (peerUserId : Key) : Store × List (Value × Text) :=
  match s.convs.lookup peerUserId with
  | some conv =>
    let due (m : ChatMessage) : Bool := ! m.mine && ! m.readSent && m.envelopeId.any (· ≠ [])
    let receipts := (conv.messages.filter due).map fun m =>
      (m.senderId.elim peerUserId.value .string, m.envelopeId.getD [])
    let messages := conv.messages.map fun m => if due m then { m with readSent := true } else m
    let s := s.set peerUserId { conv with messages, unread := 0 }
    (if receipts ≠ [] ∨ conv.unread ≠ 0 then s.rebuild else s, receipts)
  | none => (s, [])

/-- Changes every message of a thread that has the id. -/
def editMessages (s : Store) (peerUserId : Key) (messageId : Text)
    (edit : ChatMessage → ChatMessage) : Store :=
  match s.convs.lookup peerUserId with
  | some conv =>
    let messages := conv.messages.map fun m => if m.id = messageId then edit m else m
    (s.set peerUserId { conv with messages }).rebuild
  | none => s

def toggleStar (s : Store) (peerUserId : Key) (messageId : Text) : Store :=
  s.editMessages peerUserId messageId fun m => { m with starred := ! m.starred }

def dismissScamWarning (s : Store) (peerUserId : Key) (messageId : Text) : Store :=
  s.editMessages peerUserId messageId fun m => { m with dismissed := true }

/-- What `reset` does at once. -/
def reset (s : Store) : Store := { s with convs := ∅, counter := 0 }.rebuild

end Store

/-- What is read back of the saved blob. -/
structure PersistedState where
  counter : Nat
  conversations : List Conversation

namespace Store

/-- One saved conversation: before what has arrived meanwhile, or on its own. -/
def hydrateOne (s : Store) (c : Conversation) : Store :=
  let key := s.keyOf c.peerUserId
  let s := { s with references := s.references + 1 }
  match s.convs.lookup key with
  | some existing => s.set key { existing with
      messages := c.messages ++ existing.messages
      peerPhone := existing.peerPhone.or c.peerPhone
      unread := existing.unread + c.unread
      lastAt := max existing.lastAt c.lastAt }
  | none => s.set key
      { peerUserId := c.peerUserId, peerPhone := c.peerPhone, messages := c.messages
        unread := c.unread, lastAt := c.lastAt }

/-- The end of `hydrate`. -/
def hydrate (s : Store) (data : PersistedState) : Store :=
  (data.conversations.foldl hydrateOne { s with counter := max s.counter data.counter }).rebuild

end Store

/-- What survives the return of each saved conversation holds after a load. -/
theorem hydrate_invariant {s : Store} {data : PersistedState} (holds : Store → Prop)
    (initial : holds { s with counter := max s.counter data.counter })
    (preserved : ∀ t, ∀ c ∈ data.conversations, holds t → holds (t.hydrateOne c))
    (relisted : ∀ t, holds t → holds t.rebuild) : holds (s.hydrate data) :=
  relisted _ (data.conversations.foldlRecOn Store.hydrateOne initial fun t held c inside =>
    preserved t c inside held)

/-! ### What arrives -/

/-- What the client hands over of an inbound message. -/
structure Inbound where
  fromUserId : Text
  text : Text
  receivedAt : Nat
  envelopeId : Option Text
  verdict : Option ScamVerdict

/-- What is passed on to another part of the app. -/
inductive Handoff where
  /-- to the typing store -/
  | typing (conversationId : Key) (senderId : Text) (typing : Bool)
  /-- to the call manager -/
  | call (fromPeerId : Text) (signal : Value)
  /-- to the status store -/
  | status (fromUserId : Text) (payload : Value) (fromPhone : Option Text)
  /-- to the media service -/
  | download (peerUserId : Key) (messageId : Text) (ref : Value)

/-- What `receive` comes to. -/
structure Reception where
  store : Store
  handoff : Option Handoff := none
  threw : Bool := false

namespace Store

/-- The roster a payload gives a group: without ourselves, if we are signed in. -/
def roster (me : Option Text) (members : Value) : Option Value :=
  if (accountId me).truthy then (others me members).map .array else some members

/-- A group message belongs in the thread its payload names.  The thread is there
before the roster is read, also when reading it throws. -/
def receiveGroup (s : Store) (me : Option Text) (m : Inbound) (payload : Value) : Reception :=
  let key := s.keyOf (payload.get "gid")
  let s := { s with references := s.references + 1 }
  let conv := s.ensure key
  match roster me (payload.get "members") with
  | none => { store := s.set key conv, threw := true }
  | some members =>
    let (message, s) := s.make (payload.get "text") false m.receivedAt
    let message := { message with
      senderId := some m.fromUserId
      envelopeId := m.envelopeId.filter (· ≠ [])
      verdict := m.verdict }
    let conv := { conv with
      group := some { name := payload.get "name", members }
      messages := conv.messages ++ [message]
      unread := conv.unread + 1
      lastAt := m.receivedAt }
    { store := (s.set key conv).rebuild }

/-- Anything without a marker, and attachments. -/
def receiveChat (s : Store) (m : Inbound) : Reception :=
  let key := Key.user m.fromUserId
  let conv := s.ensure key
  let mediaRef := parseMediaBody m.text
  let append (message : ChatMessage) (s : Store) : Store :=
    (s.set key { conv with
      messages := conv.messages ++ [message]
      unread := conv.unread + 1
      lastAt := m.receivedAt }).rebuild
  let envelopeId := m.envelopeId.filter (· ≠ [])
  if mediaRef.truthy then
    let mime := mediaRef.get "mime"
    match mediaLabel mime (mediaRef.get "name") with
    | none => { store := s.set key conv, threw := true }
    | some label =>
      let image := (isImageMime mime).getD false
      let (message, s) := s.make (.string label) false m.receivedAt
      let message := { message with
        envelopeId
        media := some mediaRef
        mediaMime := mime
        mediaName := mediaRef.get "name"
        mediaSize := mediaRef.get "size"
        mediaState := if image then some .loading else none }
      let s := append message s
      if image then
        { store := s.loadMedia key message.id, handoff := some (.download key message.id mediaRef) }
      else { store := s }
  else
    let (message, s) := s.make (.string m.text) false m.receivedAt
    { store := append { message with envelopeId, verdict := m.verdict } s }

/-- The one handler of inbound text. -/
def receive (s : Store) (me : Option Text) (m : Inbound) : Reception :=
  if isTypingBody m.text then
    let payload := parseTypingBody m.text
    if payload.truthy then
      let gid := payload.get "gid"
      let conversationId := if gid.nullish then .user m.fromUserId else s.keyOf gid
      { store := { s with references := s.references + 1 }
        handoff := some (.typing conversationId m.fromUserId (payload.get "typing").truthy) }
    else { store := s }
  else if isCallBody m.text then
    let signal := parseCallBody m.text
    { store := s, handoff := if signal.truthy then some (.call m.fromUserId signal) else none }
  else if isGroupBody m.text then
    let payload := parseGroupBody m.text
    if payload.truthy then s.receiveGroup me m payload else { store := s }
  else if isStatusBody m.text then
    let payload := parseStatusBody m.text
    let phone := (s.convs.lookup (.user m.fromUserId)).bind (·.peerPhone)
    { store := s
      handoff := if payload.truthy then some (.status m.fromUserId payload phone) else none }
  else s.receiveChat m

end Store

end Hwfa.ConversationStore
