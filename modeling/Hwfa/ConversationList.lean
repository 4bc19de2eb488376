import Hwfa.ConversationOutbound

/-!
The list of conversations as the screens see it (`rebuild`, `emit` and
`getConversations` of `apps/mobile/src/store/conversations.ts`).

The list is a copy that each method has to renew.  The methods are told here a second time,
with `rebuild` and `emit` as steps of their own: every array that is installed is a new one,
and what the listeners find when they are called is written down.  `store_call` says that
they do to the store what they are said to do elsewhere.
-/

namespace Hwfa.ConversationList

open Hwfa.Json Hwfa.Maps Hwfa.Machines Hwfa.ConversationStore Hwfa.ConversationInbound
open Hwfa.ConversationOutbound (getConversations)

/-! ### A store that is watched -/

/-- What the listeners find when they are called. -/
structure Notice where
  array : Nat
  store : Store

structure Watched where
  store : Store := {}
  /-- how many arrays have been installed; the last of them is the list -/
  arrays : Nat := 0
  notices : List Notice := []

/-- The methods of the store. -/
inductive Call where
  /-- the end of `hydrate`, with what could be read -/
  | hydrate (data : Option PersistedState)
  | setPeerIdentity (peerUserId : Key) (identityB64 : Text)
  | ensurePeer (peerUserId : Key) (peerPhone : Option Text)
  | send (me : Option Text) (peerUserId : Key) (text : Text) (now : Nat)
  | createGroup (gid name : Text) (members : List Text) (now : Nat)
  | sendMedia (peerUserId : Key) (media : MediaPlaintext) (now : Nat)
  /-- an upload or a download goes on, or a file has been written -/
  | patch (peerUserId : Key) (messageId : Text) (fields : ChatMessage → ChatMessage)
  | applyStatus (clientRef : Text) (status : MessageStatus)
  | markRead (peerUserId : Key)
  | toggleStar (peerUserId : Key) (messageId : Text)
  | dismissScamWarning (peerUserId : Key) (messageId : Text)
  | reset
  | receive (me : Option Text) (m : Inbound)

def storeAfter (s : Store) : Call → Store
  | .hydrate data => data.elim s s.hydrate
  | .setPeerIdentity key identity => s.setPeerIdentity key identity
  | .ensurePeer key phone => s.ensurePeer key phone
  | .send me key text now => (s.send me key text now).1
  | .createGroup gid name members now => s.createGroup gid name members now
  | .sendMedia key media now => (s.sendMedia key media now).1
  | .patch key id fields => s.patch key id fields
  | .applyStatus ref status => s.applyStatus ref status
  | .markRead key => (s.markRead key).1
  | .toggleStar key id => s.toggleStar key id
  | .dismissScamWarning key id => s.dismissScamWarning key id
  | .reset => s.reset
  | .receive me m => (s.receive me m).store

namespace Watched

def set (x : Watched) (key : Key) (conv : Conversation) : Watched :=
  { x with store := x.store.set key conv }

def rebuild (x : Watched) : Watched := { x with store := x.store.rebuild, arrays := x.arrays + 1 }

def emit (x : Watched) : Watched :=
  { x with notices := x.notices ++ [{ array := x.arrays, store := x.store }] }

/-- A message is counted. -/
def count (x : Watched) : Watched := { x with store := { x.store with counter := x.store.counter + 1 } }

/-- A value is parsed. -/
def parsed (x : Watched) : Watched :=
  { x with store := { x.store with references := x.store.references + 1 } }

def hydrate (x : Watched) (data : PersistedState) : Watched :=
  let counted := { x.store with counter := max x.store.counter data.counter }
  ({ x with store := data.conversations.foldl Store.hydrateOne counted } : Watched).rebuild.emit

def setPeerIdentity (x : Watched) (key : Key) (identity : Text) : Watched :=
  match x.store.convs.lookup key with
  | some conv =>
    if conv.peerIdentityB64 = some identity then x
    else (x.set key { conv with peerIdentityB64 := some identity }).rebuild.emit
  | none => x

def ensurePeer (x : Watched) (key : Key) (peerPhone : Option Text) : Watched :=
  let conv := x.store.ensure key
  let x := x.set key conv
  match peerPhone.filter (· ≠ []) with
  | some phone =>
    if conv.peerPhone = some phone then x
    else (x.set key { conv with peerPhone := some phone }).rebuild.emit
  | none => x

/-- A message of ours is appended. -/
def append (x : Watched) (key : Key) (message : ChatMessage) (now : Nat) : Watched :=
  let conv := x.store.ensure key
  (x.count.set key { conv with messages := conv.messages ++ [message], lastAt := now }).rebuild.emit

def send (x : Watched) (key : Key) (text : Text) (now : Nat) : Watched :=
  let (message, counted) := x.store.make (.string text) true now
  match (x.store.ensure key).group with
  | some _ => x.append key message now
  | none => x.append key
    { message with clientRef := some (counted.clientRef now), status := some .sending } now

def createGroup (x : Watched) (gid name : Text) (members : List Text) (now : Nat) : Watched :=
  let conv := x.store.ensure (.user gid)
  let group := { name := .string name, members := .array (members.map .string) }
  (x.set (.user gid) { conv with group := some group, lastAt := now }).rebuild.emit

def patch (x : Watched) (key : Key) (messageId : Text) (fields : ChatMessage → ChatMessage) :
    Watched :=
  match x.store.convs.lookup key with
  | some conv =>
    match conv.messages.findIdx? fun m => m.id = messageId with
    | some i => (x.set key { conv with messages := conv.messages.modify i fields }).rebuild.emit
    | none => x
  | none => x

def sendMedia (x : Watched) (key : Key) (media : MediaPlaintext) (now : Nat) : Watched :=
  let name := media.name.elim .undefined .string
  let label := (mediaLabel (.string media.mime) name).getD []
  let (message, counted) := x.store.make (.string label) true now
  let image := (utf16 "image/").isPrefixOf media.mime
  x.append key
    { message with
      clientRef := some (counted.clientRef now)
      status := some .sending
      mediaMime := .string media.mime
      mediaName := name
      mediaSize := .number (.finite (media.size * one))
      mediaUri := if image then some media.uri else none
      mediaState := if image then some .ready else none } now

def applyStatus (x : Watched) (clientRef : Text) (status : MessageStatus) : Watched :=
  let about (conv : Conversation) := conv.messages.findIdx? fun m => m.clientRef = some clientRef
  match x.store.convs.entries.find? fun entry => (about entry.2).isSome with
  | some ⟨key, conv⟩ =>
    let i := (about conv).getD 0
    let current := conv.messages[i]?.bind (·.status)
    if current.any fun before => STATUS_RANK status ≤ STATUS_RANK before then x
    else
      let messages := conv.messages.modify i fun m => { m with status := some status }
      (x.set key { conv with messages }).rebuild.emit
  | none => x

/-- The thread is stored back even where nothing has changed. -/
def markRead (x : Watched) (key : Key) : Watched :=
  match x.store.convs.lookup key with
  | some conv =>
    let due (m : ChatMessage) : Bool := ! m.mine && ! m.readSent && m.envelopeId.any (· ≠ [])
    let messages := conv.messages.map fun m => if due m then { m with readSent := true } else m
    let changed := conv.messages.any due ∨ conv.unread ≠ 0
    let x := x.set key { conv with messages, unread := 0 }
    if changed then x.rebuild.emit else x
  | none => x

def editMessages (x : Watched) (key : Key) (messageId : Text) (edit : ChatMessage → ChatMessage) :
    Watched :=
  match x.store.convs.lookup key with
  | some conv =>
    let messages := conv.messages.map fun m => if m.id = messageId then edit m else m
    (x.set key { conv with messages }).rebuild.emit
  | none => x

def toggleStar (x : Watched) (key : Key) (messageId : Text) : Watched :=
  x.editMessages key messageId fun m => { m with starred := ! m.starred }

def dismissScamWarning (x : Watched) (key : Key) (messageId : Text) : Watched :=
  x.editMessages key messageId fun m => { m with dismissed := true }

def reset (x : Watched) : Watched :=
  { x with store := { x.store with convs := ∅, counter := 0 } }.rebuild.emit

/-- An inbound message is appended to a thread that is there by now. -/
def deliver (x : Watched) (key : Key) (conv : Conversation) (message : ChatMessage) (at_ : Nat) :
    Watched :=
  (x.count.set key { conv with
    messages := conv.messages ++ [message]
    unread := conv.unread + 1
    lastAt := at_ }).rebuild.emit

/-- The thread is opened, then the roster is read. -/
def receiveGroup (x : Watched) (me : Option Text) (m : Inbound) (payload : Value) : Watched :=
  let key := x.store.keyOf (payload.get "gid")
  let conv := x.store.ensure key
  let x := x.parsed.set key conv
  match Store.roster me (payload.get "members") with
  | none => x
  | some members =>
    x.deliver key { conv with group := some { name := payload.get "name", members } }
      (groupMessage x.store m payload) m.receivedAt

/-- The thread is opened, then the label of an attachment is made. -/
def receiveChat (x : Watched) (m : Inbound) : Watched :=
  let key := Key.user m.fromUserId
  let conv := x.store.ensure key
  let x := x.set key conv
  let mediaRef := parseMediaBody m.text
  if mediaRef.truthy then
    match mediaLabel (mediaRef.get "mime") (mediaRef.get "name") with
    | none => x
    | some label =>
      let message := mediaMessage x.store m label
      let delivered := x.deliver key conv message m.receivedAt
      if (isImageMime (mediaRef.get "mime")).getD false then
        delivered.patch key message.id fun m => { m with mediaState := some .loading }
      else delivered
  else x.deliver key conv (plainMessage x.store m) m.receivedAt

def receive (x : Watched) (me : Option Text) (m : Inbound) : Watched :=
  if isTypingBody m.text then
    if (parseTypingBody m.text).truthy then x.parsed else x
  else if isCallBody m.text then x
  else if isGroupBody m.text then
    let payload := parseGroupBody m.text
    if payload.truthy then x.receiveGroup me m payload else x
  else if isStatusBody m.text then x
  else x.receiveChat m

def call (x : Watched) : Call → Watched
  | .hydrate data => data.elim x x.hydrate
  | .setPeerIdentity key identity => x.setPeerIdentity key identity
  | .ensurePeer key phone => x.ensurePeer key phone
  | .send _ key text now => x.send key text now
  | .createGroup gid name members now => x.createGroup gid name members now
  | .sendMedia key media now => x.sendMedia key media now
  | .patch key id fields => x.patch key id fields
  | .applyStatus ref status => x.applyStatus ref status
  | .markRead key => x.markRead key
  | .toggleStar key id => x.toggleStar key id
  | .dismissScamWarning key id => x.dismissScamWarning key id
  | .reset => x.reset
  | .receive me m => x.receive me m

end Watched

def watched : Machine Watched Call where
  start := fun x => x = {}
  step := fun x c => some (x.call c)

/-! ### The same store -/

theorem set_set (s : Store) (key : Key) (first second : Conversation) :
    (s.set key first).set key second = s.set key second := by
  unfold Store.set
  rw [FinMap.put_put]

theorem set_count_set (x : Watched) (key : Key) (first second : Conversation) :
    ((x.set key first).count.set key second).store = (x.count.set key second).store :=
  set_set { x.store with counter := x.store.counter + 1 } key first second

theorem store_patch (x : Watched) (key : Key) (id : Text) (fields : ChatMessage → ChatMessage) :
    (x.patch key id fields).store = x.store.patch key id fields := by
  unfold Watched.patch Store.patch
  cases x.store.convs.lookup key with
  | none => rfl
  | some conv =>
    dsimp only
    cases conv.messages.findIdx? fun m => m.id = id <;> rfl

theorem store_setPeerIdentity (x : Watched) (key : Key) (identity : Text) :
    (x.setPeerIdentity key identity).store = x.store.setPeerIdentity key identity := by
  unfold Watched.setPeerIdentity Store.setPeerIdentity
  cases x.store.convs.lookup key with
  | none => rfl
  | some conv =>
    dsimp only
    split <;> rfl

theorem store_ensurePeer (x : Watched) (key : Key) (phone : Option Text) :
    (x.ensurePeer key phone).store = x.store.ensurePeer key phone := by
  unfold Watched.ensurePeer Store.ensurePeer
  dsimp only
  cases phone.filter (· ≠ []) with
  | none => rfl
  | some phone =>
    dsimp only
    split
    · rfl
    · exact congrArg Store.rebuild (set_set ..)

theorem store_send (x : Watched) (me : Option Text) (key : Key) (text : Text) (now : Nat) :
    (x.send key text now).store = (x.store.send me key text now).1 := by
  unfold Watched.send Watched.append Store.send Store.sendGroup
  dsimp only
  cases (x.store.ensure key).group <;> rfl

theorem store_applyStatus (x : Watched) (ref : Text) (status : MessageStatus) :
    (x.applyStatus ref status).store = x.store.applyStatus ref status := by
  unfold Watched.applyStatus Store.applyStatus
  dsimp only
  cases x.store.convs.entries.find? fun entry =>
      (entry.2.messages.findIdx? fun m => m.clientRef = some ref).isSome with
  | none => rfl
  | some entry =>
    dsimp only
    split <;> rfl

theorem store_markRead (x : Watched) (key : Key) :
    (x.markRead key).store = (x.store.markRead key).1 := by
  unfold Watched.markRead Store.markRead
  cases x.store.convs.lookup key with
  | none => rfl
  | some conv =>
    dsimp only
    rw [apply_ite Watched.store]
    refine if_congr (or_congr ?_ Iff.rfl) rfl rfl
    rw [ne_eq, List.map_eq_nil_iff, List.filter_eq_nil_iff, List.any_eq_true]
    simp only [not_forall, not_not, exists_prop]

theorem store_editMessages (x : Watched) (key : Key) (id : Text)
    (edit : ChatMessage → ChatMessage) :
    (x.editMessages key id edit).store = x.store.editMessages key id edit := by
  unfold Watched.editMessages Store.editMessages
  cases x.store.convs.lookup key <;> rfl

theorem store_receiveGroup (x : Watched) (me : Option Text) (m : Inbound) (payload : Value) :
    (x.receiveGroup me m payload).store = (x.store.receiveGroup me m payload).store := by
  unfold Watched.receiveGroup Store.receiveGroup
  dsimp only
  cases Store.roster me (payload.get "members") with
  | none => rfl
  | some members => exact congrArg Store.rebuild (set_count_set ..)

theorem store_receiveChat (x : Watched) (m : Inbound) :
    (x.receiveChat m).store = (x.store.receiveChat m).store := by
  unfold Watched.receiveChat Store.receiveChat mediaMessage
  dsimp only
  split
  · cases mediaLabel ((parseMediaBody m.text).get "mime") ((parseMediaBody m.text).get "name") with
    | none => rfl
    | some label =>
      dsimp only
      cases (isImageMime ((parseMediaBody m.text).get "mime")).getD false with
      | true =>
        rw [if_pos rfl, if_pos rfl, store_patch]
        exact congrArg (Store.loadMedia · _ _) (congrArg Store.rebuild (set_count_set ..))
      | false => exact congrArg Store.rebuild (set_count_set ..)
  · exact congrArg Store.rebuild (set_count_set ..)

theorem store_receive (x : Watched) (me : Option Text) (m : Inbound) :
    (x.receive me m).store = (x.store.receive me m).store := by
  unfold Watched.receive Store.receive
  dsimp only
  split
  · split <;> rfl
  · split
    · rfl
    · split
      · split
        · exact store_receiveGroup ..
        · rfl
      · split
        · rfl
        · exact store_receiveChat ..

/-- The methods do to the store what they are said to do elsewhere. -/
theorem store_call (x : Watched) (c : Call) : (x.call c).store = storeAfter x.store c := by
  cases c with
  | hydrate data => cases data <;> rfl
  | setPeerIdentity key identity => exact store_setPeerIdentity ..
  | ensurePeer key phone => exact store_ensurePeer ..
  | send me key text now => exact store_send ..
  | createGroup | sendMedia | reset => rfl
  | patch key id fields => exact store_patch ..
  | applyStatus ref status => exact store_applyStatus ..
  | markRead key => exact store_markRead ..
  | toggleStar key id | dismissScamWarning key id => exact store_editMessages ..
  | receive me m => exact store_receive ..

/-! ### What is shown -/

/-- The list has every conversation once, the most recent first. -/
structure Current (s : Store) : Prop where
  complete : s.listSnapshot.Perm s.convs.keys
  sorted : (getConversations s).Pairwise fun a b => b.lastAt ≤ a.lastAt

/-- What a method is to leave behind: the list is current; whenever the listeners were called
they found a new array that was current; and if a conversation was added or changed, they
found it so when they were called last. -/
structure Published (x x' : Watched) : Prop where
  current : Current x'.store
  fresh : ∃ added, x'.notices = x.notices ++ added ∧
    ∀ n ∈ added, x.arrays < n.array ∧ Current n.store
  announced : x'.store.convs ≠ x.store.convs → ∃ n, x'.notices.getLast? = some n ∧
    x.arrays < n.array ∧ n.array = x'.arrays ∧ n.store.convs = x'.store.convs

/-- The thread that is opened for an inbound message that cannot be read: a group whose roster
is no array, or an attachment that no label can be made of. -/
def unreadThread (s : Store) (me : Option Text) (m : Inbound) : Option Key :=
  if isTypingBody m.text || isCallBody m.text then none
  else if isGroupBody m.text then
    let payload := parseGroupBody m.text
    if payload.truthy && (Store.roster me (payload.get "members")).isNone then
      some (s.keyOf (payload.get "gid"))
    else none
  else if isStatusBody m.text then none
  else
    let mediaRef := parseMediaBody m.text
    if mediaRef.truthy && (mediaLabel (mediaRef.get "mime") (mediaRef.get "name")).isNone then
      some (.user m.fromUserId)
    else none

/-- No thread is opened without a phone number to be shown, or for a message that cannot be
read. -/
def Shows (s : Store) : Call → Prop
  | .ensurePeer key phone => phone.any (· ≠ []) ∨ (s.convs.lookup key).isSome
  | .receive me m => ∀ key ∈ unreadThread s me m, (s.convs.lookup key).isSome
  | _ => True

theorem current_rebuild (s : Store) : Current s.rebuild := by
  let newestFirst (a b : Σ _ : Key, Conversation) : Bool := b.2.lastAt ≤ a.2.lastAt
  have same : (s.convs.entries.mergeSort newestFirst).Perm s.convs.entries :=
    List.mergeSort_perm _ _
  have descending : (s.convs.entries.mergeSort newestFirst).Pairwise fun a b => newestFirst a b := by
    apply List.pairwise_mergeSort
    · intro a b c first second
      exact decide_eq_true (Nat.le_trans (of_decide_eq_true second) (of_decide_eq_true first))
    · intro a b
      simpa [newestFirst] using Nat.le_total _ _
  have found : ∀ e ∈ s.convs.entries.mergeSort newestFirst, s.convs.lookup e.1 = some e.2 :=
    fun e member => AList.mem_lookup_iff.mpr (same.mem_iff.mp member)
  have shown : getConversations s.rebuild =
      (s.convs.entries.mergeSort newestFirst).map (·.2) := by
    change ((s.convs.entries.mergeSort newestFirst).map (·.1)).filterMap s.convs.lookup = _
    rw [List.filterMap_map]
    exact (List.filterMap_congr found).trans (congrFun List.filterMap_eq_map' _)
  refine ⟨same.map Sigma.fst, ?_⟩
  rw [shown, List.pairwise_map]
  exact descending.imp fun lower => of_decide_eq_true lower

theorem Current.of_same {s s' : Store} (current : Current s) (convs : s'.convs = s.convs)
    (listed : s'.listSnapshot = s.listSnapshot) : Current s' where
  complete := by
    rw [convs, listed]
    exact current.complete
  sorted := by
    have same : getConversations s' = getConversations s := by
      rw [getConversations, convs, listed, getConversations]
    rw [same]
    exact current.sorted

variable {x y : Watched} {key : Key}

/-- So far every call of the listeners was for a new array that was current. -/
structure Ahead (x y : Watched) : Prop where
  arrays : x.arrays ≤ y.arrays
  fresh : ∃ added, y.notices = x.notices ++ added ∧
    ∀ n ∈ added, x.arrays < n.array ∧ Current n.store

theorem ahead_of_same (arrays : y.arrays = x.arrays) (notices : y.notices = x.notices) :
    Ahead x y where
  arrays := Nat.le_of_eq arrays.symm
  fresh := ⟨[], by rw [notices, List.append_nil], fun _ member => absurd member List.not_mem_nil⟩

theorem published_emit (ahead : Ahead x y) : Published x y.rebuild.emit := by
  obtain ⟨added, notices, fresh⟩ := ahead.fresh
  have later : x.arrays < y.arrays + 1 := Nat.lt_succ_of_le ahead.arrays
  have last : y.rebuild.emit.notices = x.notices ++ (added ++ [⟨y.arrays + 1, y.store.rebuild⟩]) := by
    rw [← List.append_assoc, ← notices]
    rfl
  refine ⟨current_rebuild _, ⟨_, last, ?_⟩, fun _ => ⟨⟨y.arrays + 1, y.store.rebuild⟩, ?_, later, rfl, rfl⟩⟩
  · intro n member
    rcases List.mem_append.mp member with earlier | now
    · exact fresh n earlier
    · rw [List.mem_singleton.mp now]
      exact ⟨later, current_rebuild _⟩
  · rw [last, ← List.append_assoc]
    exact List.getLast?_concat

/-- A message that is patched after it has been shown. -/
theorem published_emit_patch (ahead : Ahead x y) (id : Text)
    (fields : ChatMessage → ChatMessage) : Published x (y.rebuild.emit.patch key id fields) := by
  have first := published_emit ahead
  have again : Ahead x y.rebuild.emit := ⟨Nat.le_succ_of_le ahead.arrays, first.fresh⟩
  unfold Watched.patch
  split
  · split
    · exact published_emit ⟨again.arrays, again.fresh⟩
    · exact first
  · exact first

theorem published_set (key : Key) (conv : Conversation) : Published x (x.set key conv).rebuild.emit :=
  published_emit (ahead_of_same rfl rfl)

section

variable (current : Current x.store)
include current

theorem published_quiet (convs : y.store.convs = x.store.convs)
    (listed : y.store.listSnapshot = x.store.listSnapshot) (notices : y.notices = x.notices) :
    Published x y where
  current := current.of_same convs listed
  fresh := ⟨[], by rw [notices, List.append_nil], fun _ member => absurd member List.not_mem_nil⟩
  announced changed := absurd convs changed

theorem published_refl : Published x x := published_quiet current rfl rfl rfl

/-- A thread that is opened and not shown was there. -/
theorem published_open_iff (convs : y.store.convs = x.store.convs.put key (x.store.ensure key))
    (listed : y.store.listSnapshot = x.store.listSnapshot) (notices : y.notices = x.notices) :
    Published x y ↔ (x.store.convs.lookup key).isSome := by
  constructor
  · intro published
    have shown := published.current.complete
    rw [convs, listed] at shown
    have opened := shown.mem_iff.mpr FinMap.mem_keys_put
    exact AList.lookup_isSome.mpr (AList.mem_keys.mpr (current.complete.mem_iff.mp opened))
  · intro there
    obtain ⟨conv, found⟩ := Option.isSome_iff_exists.mp there
    have same : x.store.ensure key = conv := by rw [Store.ensure, found, Option.getD_some]
    rw [same, FinMap.put_self found] at convs
    exact published_quiet current convs listed notices

theorem published_setPeerIdentity (identity : Text) : Published x (x.setPeerIdentity key identity) := by
  unfold Watched.setPeerIdentity
  split
  · split
    · exact published_refl current
    · exact published_set ..
  · exact published_refl current

theorem published_ensurePeer_iff (phone : Option Text) :
    Published x (x.ensurePeer key phone) ↔
      phone.any (· ≠ []) ∨ (x.store.convs.lookup key).isSome := by
  unfold Watched.ensurePeer
  dsimp only
  cases given : phone.filter (· ≠ []) with
  | none =>
    have missing : ¬ phone.any (· ≠ []) := by
      cases phone with
      | none => exact Bool.false_ne_true
      | some number => simpa using given
    rw [or_iff_right missing]
    exact published_open_iff current rfl rfl rfl
  | some number =>
    obtain ⟨same, nonempty⟩ := Option.filter_eq_some_iff.mp given
    have shown : phone.any (· ≠ []) := by rwa [same, Option.any_some]
    dsimp only
    refine iff_of_true ?_ (.inl shown)
    split
    · next known =>
      have there : (x.store.convs.lookup key).isSome := by
        rw [Store.ensure] at known
        cases found : x.store.convs.lookup key with
        | some conv => rfl
        | none =>
          rw [found] at known
          cases known
      have opened := published_open_iff (y := x.set key (x.store.ensure key)) current rfl rfl rfl
      exact opened.mpr there
    · exact published_emit (ahead_of_same rfl rfl)

theorem published_patch (id : Text) (fields : ChatMessage → ChatMessage) :
    Published x (x.patch key id fields) := by
  unfold Watched.patch
  split
  · split
    · exact published_set ..
    · exact published_refl current
  · exact published_refl current

theorem published_applyStatus (ref : Text) (status : MessageStatus) :
    Published x (x.applyStatus ref status) := by
  unfold Watched.applyStatus
  dsimp only
  split
  · split
    · exact published_refl current
    · exact published_set ..
  · exact published_refl current

theorem published_markRead : Published x (x.markRead key) := by
  unfold Watched.markRead
  split
  · next conv found =>
    dsimp only
    split
    · exact published_set ..
    · next unchanged =>
      obtain ⟨none_due, read⟩ := not_or.mp unchanged
      have messages : (conv.messages.map fun m => if ! m.mine && ! m.readSent &&
          m.envelopeId.any (· ≠ []) then { m with readSent := true } else m) = conv.messages := by
        apply (List.map_congr_left fun m member => ?_).trans (List.map_id _)
        apply if_neg
        intro due
        exact none_due (List.any_eq_true.mpr ⟨m, member, due⟩)
      have same : x.store.convs.put key { conv with messages := conv.messages, unread := 0 } =
          x.store.convs := by
        rw [← not_not.mp read]
        exact FinMap.put_self found
      refine published_quiet current ?_ rfl rfl
      rw [messages]
      exact same
  · exact published_refl current

theorem published_editMessages (id : Text) (edit : ChatMessage → ChatMessage) :
    Published x (x.editMessages key id edit) := by
  unfold Watched.editMessages
  split
  · exact published_set ..
  · exact published_refl current

theorem published_receiveGroup_iff (me : Option Text) (m : Inbound) (payload : Value) :
    Published x (x.receiveGroup me m payload) ↔
      (Store.roster me (payload.get "members") = none →
        (x.store.convs.lookup (x.store.keyOf (payload.get "gid"))).isSome) := by
  unfold Watched.receiveGroup
  dsimp only
  cases Store.roster me (payload.get "members") with
  | none =>
    rw [iff_true_intro rfl, true_imp_iff]
    exact published_open_iff current rfl rfl rfl
  | some members =>
    exact iff_of_true (published_emit (ahead_of_same rfl rfl)) fun unread => by cases unread

theorem published_receiveChat_iff (m : Inbound) :
    Published x (x.receiveChat m) ↔
      ((parseMediaBody m.text).truthy → mediaLabel ((parseMediaBody m.text).get "mime")
          ((parseMediaBody m.text).get "name") = none →
        (x.store.convs.lookup (.user m.fromUserId)).isSome) := by
  have ahead (y : Watched) (arrays : y.arrays = x.arrays) (notices : y.notices = x.notices) :
      Ahead x y := ahead_of_same arrays notices
  unfold Watched.receiveChat Watched.deliver
  dsimp only
  by_cases media : (parseMediaBody m.text).truthy
  · rw [if_pos media, iff_true_intro media, true_imp_iff]
    cases mediaLabel ((parseMediaBody m.text).get "mime") ((parseMediaBody m.text).get "name") with
    | none =>
      rw [iff_true_intro rfl, true_imp_iff]
      exact published_open_iff current rfl rfl rfl
    | some label =>
      refine iff_of_true ?_ fun unlabelled => by cases unlabelled
      dsimp only
      split
      · apply published_emit_patch
        exact ahead _ rfl rfl
      · exact published_emit (ahead _ rfl rfl)
  · rw [if_neg media]
    exact iff_of_true (published_emit (ahead _ rfl rfl)) fun truthy => absurd truthy media

theorem published_receive_iff (me : Option Text) (m : Inbound) :
    Published x (x.receive me m) ↔
      ∀ key ∈ unreadThread x.store me m, (x.store.convs.lookup key).isSome := by
  have aside {y : Watched} (convs : y.store.convs = x.store.convs)
      (listed : y.store.listSnapshot = x.store.listSnapshot) (notices : y.notices = x.notices) :
      Published x y ↔ ∀ key ∈ (none : Option Key), (x.store.convs.lookup key).isSome :=
    iff_of_true (published_quiet current convs listed notices) fun _ member => by cases member
  unfold Watched.receive unreadThread
  dsimp only
  by_cases typing : isTypingBody m.text
  · rw [if_pos typing, typing, Bool.true_or, if_pos rfl]
    split <;> exact aside rfl rfl rfl
  by_cases call : isCallBody m.text
  · rw [if_neg typing, if_pos call, call, Bool.or_true, if_pos rfl]
    exact aside rfl rfl rfl
  have neither : ¬ (isTypingBody m.text || isCallBody m.text) := by simp [typing, call]
  rw [if_neg typing, if_neg call, if_neg neither]
  by_cases grouped : isGroupBody m.text
  · rw [if_pos grouped, if_pos grouped]
    by_cases truthy : (parseGroupBody m.text).truthy
    · rw [if_pos truthy, published_receiveGroup_iff current, truthy, Bool.true_and]
      cases Store.roster me ((parseGroupBody m.text).get "members") with
      | none => simp
      | some members => simp
    · rw [if_neg truthy, if_neg (by simp [truthy])]
      exact aside rfl rfl rfl
  rw [if_neg grouped, if_neg grouped]
  by_cases status : isStatusBody m.text
  · rw [if_pos status, if_pos status]
    exact aside rfl rfl rfl
  rw [if_neg status, if_neg status, published_receiveChat_iff current]
  by_cases truthy : (parseMediaBody m.text).truthy
  · rw [truthy, Bool.true_and]
    cases mediaLabel ((parseMediaBody m.text).get "mime") ((parseMediaBody m.text).get "name") with
    | none => simp
    | some label => simp
  · simp [truthy]

/-- From a list that is current, a method publishes what it does exactly if it opens no thread
that is not shown. -/
theorem published_call_iff (c : Call) : Published x (x.call c) ↔ Shows x.store c := by
  cases c with
  | hydrate data =>
    refine iff_of_true ?_ trivial
    cases data with
    | none => exact published_refl current
    | some data => exact published_emit (ahead_of_same rfl rfl)
  | setPeerIdentity key identity => exact iff_of_true (published_setPeerIdentity current _) trivial
  | ensurePeer key phone => exact published_ensurePeer_iff current phone
  | send me key text now =>
    refine iff_of_true ?_ trivial
    unfold Watched.call Watched.send
    dsimp only
    split <;> exact published_emit (ahead_of_same rfl rfl)
  | createGroup | sendMedia | reset =>
    exact iff_of_true (published_emit (ahead_of_same rfl rfl)) trivial
  | patch key id fields => exact iff_of_true (published_patch current id fields) trivial
  | applyStatus ref status => exact iff_of_true (published_applyStatus current ref status) trivial
  | markRead key => exact iff_of_true (published_markRead current) trivial
  | toggleStar key id | dismissScamWarning key id =>
    exact iff_of_true (published_editMessages current _ _) trivial
  | receive me m => exact published_receive_iff current me m

end

/-! ### Whole runs -/

theorem current_empty : Current {} where
  complete := .refl _
  sorted := .nil

theorem current_of_reached (reached : watched.Reached (fun x c => Shows x.store c) x) :
    Current x.store := by
  apply reached.invariant fun x => Current x.store
  · rintro _ rfl
    exact current_empty
  · intro x c x' current shows moved
    cases moved
    exact ((published_call_iff current c).mpr shows).current

/-- In every run in which no thread is opened without being shown the list is current, and
the next call publishes what it does exactly if it opens no such thread. -/
theorem call_publishes_iff (reached : watched.Reached (fun x c => Shows x.store c) x) :
    Current x.store ∧ ∀ c, Published x (x.call c) ↔ Shows x.store c :=
  ⟨current_of_reached reached, published_call_iff (current_of_reached reached)⟩

def bob : Key := .user (utf16 "bob")

def alice : Option Text := some (utf16 "alice")

/-- bob is found by his number and written to. -/
theorem found_peer_is_listed :
    let find : Call := .ensurePeer bob (some (utf16 "+2348031234567"))
    let write : Call := .send alice bob (utf16 "hi") 1
    let x := (({} : Watched).call find).call write
    Current x.store ∧ ∀ c, Published x (x.call c) ↔ Shows x.store c := by
  intro find write x
  have numbered : Shows {} find := by
    unfold Shows
    exact .inl rfl
  have written : Shows (({} : Watched).call find).store write := trivial
  exact call_publishes_iff (.step (.step (.start rfl) numbered rfl) written rfl)

/-- A group message that has no roster. -/
def rosterless : Inbound where
  fromUserId := utf16 "mallory"
  text := utf16 "hwfa-group:\x7b\"gid\":\"g\"\x7d"
  receivedAt := 1
  envelopeId := none
  verdict := none

/-- A peer without a number is a conversation that is not listed, and so is a group whose
first message cannot be read. -/
theorem opened_thread_is_not_listed :
    ∃ unnumbered unread : Watched,
      unnumbered = ({} : Watched).call (.ensurePeer bob none) ∧ ¬ Published {} unnumbered ∧
        (unnumbered.store.convs.lookup bob).isSome ∧ getConversations unnumbered.store = [] ∧
      unread = ({} : Watched).call (.receive alice rosterless) ∧ ¬ Published {} unread ∧
        (unread.store.convs.lookup (.user (utf16 "g"))).isSome ∧
          getConversations unread.store = [] := by
  have opens : unreadThread {} alice rosterless = some (.user (utf16 "g")) := by decide +kernel
  have listed : (Store.receive {} alice rosterless).store.listSnapshot = [] := by decide +kernel
  refine ⟨_, _, rfl, ?_, rfl, rfl, rfl, ?_, ?_, ?_⟩
  · rw [published_call_iff current_empty]
    rintro (numbered | there)
    · cases numbered
    · cases there
  · rw [published_call_iff current_empty]
    intro shows
    cases shows _ opens
  · rw [store_call]
    decide +kernel
  · rw [store_call, getConversations, storeAfter, listed]
    rfl

end Hwfa.ConversationList
