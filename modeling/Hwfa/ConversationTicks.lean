import Hwfa.ConversationStore
import Hwfa.Joins

/-!
The ticks of what we have sent (`applyStatus` of
`apps/mobile/src/store/conversations.ts`).

Acks, deliveries and reads arrive in any order and more than once.  A message's tick is a
cell that only rises, and an update is offered to the message of its reference; as long as
no two messages share a reference, the search through the threads finds the one it is meant
for, and a run of updates comes to offering them all at once (`applyUpdates_cases`).
-/

namespace Hwfa.ConversationTicks

open Hwfa.Json Hwfa.Maps Hwfa.Joins Hwfa.ConversationStore

/-! ### Updates -/

theorem STATUS_RANK_injective : Function.Injective STATUS_RANK := by
  intro a b same
  cases a <;> cases b <;> first | rfl | cases same

/-- Statuses are compared by their rank. -/
instance : LinearOrder MessageStatus := LinearOrder.lift' STATUS_RANK STATUS_RANK_injective

/-- What the client emits. -/
structure Update where
  clientRef : Text
  status : MessageStatus

def applyUpdates (s : Store) (updates : List Update) : Store :=
  updates.foldl (fun s u => s.applyStatus u.clientRef u.status) s

def refsIn (messages : List ChatMessage) : List Text := messages.filterMap (·.clientRef)

/-- The references of the messages of all threads. -/
def refs (s : Store) : List Text := s.convs.entries.flatMap fun e => refsIn e.2.messages

def DistinctRefs (s : Store) : Prop := (refs s).Nodup

/-! ### What updates are to do -/

/-- The statuses that a message can end with. -/
def candidates (updates : List Update) (m : ChatMessage) : Set (WithBot MessageStatus) :=
  {t | t = level m.status ∨ ∃ u ∈ updates, m.clientRef = some u.clientRef ∧ t = u.status}

/-- A message ends with the highest of its statuses, and is the same otherwise. -/
structure Settled (updates : List Update) (m m' : ChatMessage) : Prop where
  highest : IsGreatest (candidates updates m) (level m'.status)
  otherwise : m' = { m with status := m'.status }
  untouched : (∀ u ∈ updates, m.clientRef ≠ some u.clientRef) → m' = m

structure ThreadSettled (updates : List Update) (c c' : Conversation) : Prop where
  messages : List.Forall₂ (Settled updates) c.messages c'.messages
  otherwise : c' = { c with messages := c'.messages }

/-- The same threads in the same order, and what counts their messages. -/
structure Joined (updates : List Update) (s s' : Store) : Prop where
  threads : List.Forall₂ (fun e e' => e'.1 = e.1 ∧ ThreadSettled updates e.2 e'.2)
    s.convs.entries s'.convs.entries
  counter : s'.counter = s.counter
  references : s'.references = s.references

/-! ### All updates at once -/

def offersTo (ref : Option Text) (updates : List Update) : List MessageStatus :=
  updates.filterMap fun u => if ref = some u.clientRef then some u.status else none

def tick (updates : List Update) (m : ChatMessage) : ChatMessage :=
  { m with status := risen m.status (offersTo m.clientRef updates) }

def tickThread (updates : List Update) (c : Conversation) : Conversation :=
  { c with messages := c.messages.map (tick updates) }

def tickStore (updates : List Update) (s : Store) : Store :=
  { s with convs := s.convs.mapValues (tickThread updates) }

/-- No message has a status to gain. -/
def Risen (updates : List Update) (s : Store) : Prop :=
  ∀ e ∈ s.convs.entries, ∀ m ∈ e.2.messages, tick updates m = m

variable {s : Store} {updates others : List Update} {u : Update} {m : ChatMessage}

theorem mem_offersTo {ref : Option Text} {status : MessageStatus} :
    status ∈ offersTo ref updates ↔ ∃ u ∈ updates, ref = some u.clientRef ∧ u.status = status := by
  unfold offersTo
  rw [List.mem_filterMap]
  apply exists_congr
  intro u
  rw [Option.ite_none_right_eq_some, Option.some.injEq]

theorem tick_cons (m : ChatMessage) : tick (u :: updates) m = tick updates (tick [u] m) := by
  unfold tick offersTo
  by_cases mine : m.clientRef = some u.clientRef
  · simp [mine, risen]
  · simp [mine, risen]

theorem tick_other (other : m.clientRef ≠ some u.clientRef) : tick [u] m = m := by
  unfold tick offersTo
  simp [other, risen]

theorem tick_own (own : m.clientRef = some u.clientRef) :
    tick [u] m = { m with status := raise m.status u.status } := by
  unfold tick offersTo
  simp [own, risen]

theorem tick_eq_self_iff : tick updates m = m ↔
    risen m.status (offersTo m.clientRef updates) = m.status := by
  constructor
  · exact congrArg ChatMessage.status
  · intro same
    rw [tick, same]

/-- A status that was gained is not lost. -/
theorem tick_first (same : tick (u :: updates) m = m) : tick [u] m = m := by
  rw [tick_cons] at same
  have final := congrArg (fun n : ChatMessage => level n.status) same
  have up : level m.status ≤ level (tick [u] m).status := level_le_risen ..
  have on : level (tick [u] m).status ≤ level (tick updates (tick [u] m)).status :=
    level_le_risen ..
  have still : level (tick [u] m).status = level m.status := le_antisymm (on.trans final.le) up
  exact tick_eq_self_iff.mpr still

theorem tick_congr (same : ∀ u, u ∈ updates ↔ u ∈ others) (m : ChatMessage) :
    tick updates m = tick others m := by
  have offers : ∀ status, status ∈ offersTo m.clientRef updates ↔
      status ∈ offersTo m.clientRef others := by
    intro status
    simp only [mem_offersTo, same]
  rw [tick, risen_congr offers, tick]

theorem tick_settled (updates : List Update) (m : ChatMessage) :
    Settled updates m (tick updates m) where
  highest := by
    have same : candidates updates m = contenders m.status (offersTo m.clientRef updates) := by
      ext t
      unfold candidates contenders
      simp only [Set.mem_ofPred_eq, mem_offersTo]
      apply or_congr Iff.rfl
      constructor
      · rintro ⟨u, offered, own, rfl⟩
        exact ⟨u.status, ⟨u, offered, own, rfl⟩, rfl⟩
      · rintro ⟨status, ⟨u, offered, own, rfl⟩, rfl⟩
        exact ⟨u, offered, own, rfl⟩
    rw [same]
    exact isGreatest_risen ..
  otherwise := rfl
  untouched := by
    intro elsewhere
    have none_offered : offersTo m.clientRef updates = [] := by
      apply List.eq_nil_iff_forall_not_mem.mpr
      intro status offered
      obtain ⟨u, member, own, -⟩ := mem_offersTo.mp offered
      exact elsewhere u member own
    rw [tick, none_offered]
    rfl

theorem refsIn_tick (updates : List Update) (messages : List ChatMessage) :
    refsIn (messages.map (tick updates)) = refsIn messages := by
  unfold refsIn
  rw [List.filterMap_map]
  rfl

theorem refs_tickStore (updates : List Update) (s : Store) : refs (tickStore updates s) = refs s := by
  have same (c : Conversation) : refsIn (tickThread updates c).messages = refsIn c.messages :=
    refsIn_tick updates c.messages
  unfold refs
  simp only [tickStore, FinMap.mapValues, List.flatMap_map, same]

theorem tickStore_joined (updates : List Update) (s : Store) :
    Joined updates s (tickStore updates s) where
  threads := by
    apply List.forall₂_map_right_iff.mpr
    apply List.forall₂_same.mpr
    intro e _
    refine ⟨rfl, ?_, rfl⟩
    apply List.forall₂_map_right_iff.mpr
    exact List.forall₂_same.mpr fun m _ => tick_settled updates m
  counter := rfl
  references := rfl

theorem tickThread_eq_self {c : Conversation} (risen : ∀ m ∈ c.messages, tick updates m = m) :
    tickThread updates c = c := by
  have same : c.messages.map (tick updates) = c.messages :=
    (List.map_congr_left risen).trans (List.map_id _)
  rw [tickThread, same]

theorem tickStore_eq_self (risen : Risen updates s) : tickStore updates s = s := by
  have same : s.convs.mapValues (tickThread updates) = s.convs := by
    apply AList.ext
    apply (List.map_congr_left fun e member => ?_).trans (List.map_id _)
    rw [tickThread_eq_self (risen e member)]
    rfl
  rw [tickStore, same]

theorem tickStore_cons (u : Update) (updates : List Update) (s : Store) :
    tickStore (u :: updates) s = tickStore updates (tickStore [u] s) := by
  have thread (c : Conversation) :
      tickThread (u :: updates) c = tickThread updates (tickThread [u] c) := by
    simp only [tickThread, List.map_map, Function.comp_def, ← tick_cons]
  simp only [tickStore, FinMap.mapValues, List.map_map, Function.comp_def, thread]

/-! ### One update -/

theorem mem_refsIn {messages : List ChatMessage} {ref : Text} :
    ref ∈ refsIn messages ↔ ∃ m ∈ messages, m.clientRef = some ref := List.mem_filterMap

theorem tick_absent {messages : List ChatMessage} (absent : u.clientRef ∉ refsIn messages) :
    ∀ m ∈ messages, tick [u] m = m := by
  intro m member
  exact tick_other fun own => absent (mem_refsIn.mpr ⟨m, member, own⟩)

/-- The message of a reference is the only one. -/
theorem modify_found {messages : List ChatMessage} {i : Nat} (distinct : (refsIn messages).Nodup)
    (found : messages.findIdx? (fun m => m.clientRef = some u.clientRef) = some i) :
    ∃ m ∈ messages, messages[i]? = some m ∧ m.clientRef = some u.clientRef ∧
      (∀ n ∈ messages, n.clientRef = some u.clientRef → n = m) ∧
      (raise m.status u.status = some u.status → messages.map (tick [u]) =
        messages.modify i fun m => { m with status := some u.status }) := by
  induction messages generalizing i with
  | nil => cases found
  | cons first rest ih =>
    rw [List.findIdx?_cons] at found
    by_cases own : first.clientRef = some u.clientRef
    · rw [if_pos (decide_eq_true own)] at found
      cases found
      have named : refsIn (first :: rest) = u.clientRef :: refsIn rest := List.filterMap_cons_some own
      rw [named] at distinct
      have absent := (List.nodup_cons.mp distinct).1
      refine ⟨first, List.mem_cons_self, rfl, own, ?_, ?_⟩
      · intro n member named
        rcases List.mem_cons.mp member with same | later
        · exact same
        · exact absurd (mem_refsIn.mpr ⟨n, later, named⟩) absent
      · intro raised
        have later : rest.map (tick [u]) = rest :=
          (List.map_congr_left (tick_absent absent)).trans (List.map_id _)
        rw [List.map_cons, tick_own own, later, raised]
        rfl
    · rw [if_neg (by simpa using own)] at found
      obtain ⟨j, behind, rfl⟩ := Option.map_eq_some_iff.mp found
      have fewer : (refsIn rest).Sublist (refsIn (first :: rest)) :=
        (List.sublist_cons_self first rest).filterMap _
      obtain ⟨m, inside, there, named, only, same⟩ := ih (distinct.sublist fewer) behind
      refine ⟨m, List.mem_cons_of_mem _ inside, there, named, ?_, ?_⟩
      · intro n member own_n
        rcases List.mem_cons.mp member with rfl | later
        · exact absurd own_n own
        · exact only n later own_n
      · intro raised
        rw [List.map_cons, tick_other own, same raised]
        rfl

theorem findIdx?_isSome_iff {messages : List ChatMessage} {ref : Text} :
    (messages.findIdx? fun m => m.clientRef = some ref).isSome ↔ ref ∈ refsIn messages := by
  rw [List.findIdx?_isSome, List.any_eq_true, mem_refsIn]
  simp only [decide_eq_true_eq]

theorem raise_status (held : Option MessageStatus) (offered : MessageStatus) :
    raise held offered =
      if held.any fun before => STATUS_RANK offered ≤ STATUS_RANK before then held
      else some offered := by
  cases held <;> rfl

/-- The thread that has the message of a reference is the only one. -/
theorem only_thread (distinct : DistinctRefs s) {key : Key} {conv : Conversation}
    {front back : List (Sigma fun _ : Key => Conversation)}
    (parts : s.convs.entries = front ++ ⟨key, conv⟩ :: back)
    (listed : u.clientRef ∈ refsIn conv.messages) :
    (refsIn conv.messages).Nodup ∧ ∀ e ∈ front ++ back, ∀ m ∈ e.2.messages, tick [u] m = m := by
  have apart : (refs s).Nodup := distinct
  rw [refs, parts, List.flatMap_append, List.flatMap_cons] at apart
  obtain ⟨-, others, before⟩ := List.nodup_append.mp apart
  obtain ⟨own, -, behind⟩ := List.nodup_append.mp others
  refine ⟨own, ?_⟩
  intro e member
  apply tick_absent
  intro shared
  rcases List.mem_append.mp member with earlier | later
  · exact before _ (List.mem_flatMap.mpr ⟨e, earlier, shared⟩) _
      (List.mem_append_left _ listed) rfl
  · exact behind _ listed _ (List.mem_flatMap.mpr ⟨e, later, shared⟩) rfl

/-- An update raises nothing exactly if the one message that it is for stays. -/
theorem risen_iff_own {key : Key} {conv : Conversation}
    {front back : List (Sigma fun _ : Key => Conversation)}
    (parts : s.convs.entries = front ++ ⟨key, conv⟩ :: back)
    (elsewhere : ∀ e ∈ front ++ back, ∀ m ∈ e.2.messages, tick [u] m = m)
    (inside : m ∈ conv.messages) (own : m.clientRef = some u.clientRef)
    (only : ∀ n ∈ conv.messages, n.clientRef = some u.clientRef → n = m) :
    Risen [u] s ↔ raise m.status u.status = m.status := by
  constructor
  · intro risen
    have still := risen ⟨key, conv⟩ (parts ▸ List.mem_append_right _ List.mem_cons_self) m inside
    rw [tick_own own] at still
    exact congrArg ChatMessage.status still
  · intro stays e member
    rw [parts] at member
    rcases List.mem_append.mp member with earlier | here
    · exact elsewhere e (List.mem_append_left _ earlier)
    · rcases List.mem_cons.mp here with rfl | later
      · intro n mine
        by_cases named : n.clientRef = some u.clientRef
        · rw [only n mine named, tick_own own, stays]
        · exact tick_other named
      · exact elsewhere e (List.mem_append_right _ later)

/-- An update changes nothing, or raises the one message that it is for. -/
theorem applyStatus_cases (distinct : DistinctRefs s) (u : Update) :
    s.applyStatus u.clientRef u.status = s ∧ Risen [u] s ∨
      s.applyStatus u.clientRef u.status = (tickStore [u] s).rebuild ∧ ¬ Risen [u] s := by
  unfold Store.applyStatus
  dsimp only
  split
  · next key conv found =>
    obtain ⟨chosen, front, back, parts, -⟩ := List.find?_eq_some_iff_append.mp found
    obtain ⟨i, there⟩ := Option.isSome_iff_exists.mp chosen
    obtain ⟨own_distinct, elsewhere⟩ := only_thread distinct parts (findIdx?_isSome_iff.mp chosen)
    obtain ⟨m, inside, message, own, only, raised⟩ := modify_found own_distinct there
    have stays := risen_iff_own parts elsewhere inside own only
    have decided := raise_status m.status u.status
    simp only [there, Option.getD_some, message, Option.bind_some]
    split
    · next high =>
      rw [if_pos high] at decided
      exact .inl ⟨rfl, stays.mpr decided⟩
    · next low =>
      rw [if_neg low] at decided
      right
      constructor
      · have ticked : s.convs.put key (tickThread [u] conv) =
            s.convs.mapValues (tickThread [u]) :=
          FinMap.put_eq_mapValues parts fun e member => tickThread_eq_self (elsewhere e member)
        rw [tickStore, ← ticked, tickThread, raised decided]
        rfl
      · intro risen
        have status := stays.mp risen
        rw [decided] at status
        apply low
        rw [← status]
        exact decide_eq_true (Nat.le_refl _)
  · next absent =>
    left
    refine ⟨rfl, ?_⟩
    intro e member
    apply tick_absent
    have nothing := List.find?_eq_none.mp absent e member
    exact fun shared => nothing (findIdx?_isSome_iff.mpr shared)

/-! ### Runs of updates -/

theorem Risen.first (risen : Risen (u :: updates) s) : Risen [u] s :=
  fun e member m inside => tick_first (risen e member m inside)

theorem risen_cons_iff : Risen (u :: updates) s ↔ Risen [u] s ∧ Risen updates (tickStore [u] s) := by
  constructor
  · intro risen
    refine ⟨risen.first, ?_⟩
    rw [tickStore_eq_self risen.first]
    intro e member m inside
    have whole := risen e member m inside
    rwa [tick_cons, risen.first e member m inside] at whole
  · rintro ⟨first, rest⟩ e member m inside
    rw [tickStore_eq_self first] at rest
    rw [tick_cons, first e member m inside]
    exact rest e member m inside

/-- A run of updates offers them all at once; the list is sorted anew if one was taken. -/
theorem applyUpdates_cases (distinct : DistinctRefs s) (updates : List Update) :
    applyUpdates s updates = s ∧ Risen updates s ∨
      applyUpdates s updates = (tickStore updates s).rebuild ∧ ¬ Risen updates s := by
  induction updates generalizing s with
  | nil => exact .inl ⟨rfl, fun _ _ _ _ => rfl⟩
  | cons u rest ih =>
    have next : applyUpdates s (u :: rest) = applyUpdates (s.applyStatus u.clientRef u.status) rest :=
      rfl
    rw [next, risen_cons_iff, tickStore_cons u rest]
    rcases applyStatus_cases distinct u with ⟨same, first⟩ | ⟨raised, first⟩
    · rw [same, tickStore_eq_self first, and_iff_right first]
      exact ih distinct
    · right
      refine ⟨?_, fun both => first both.1⟩
      have kept : DistinctRefs (tickStore [u] s).rebuild := by
        rw [DistinctRefs]
        exact (refs_tickStore [u] s).symm ▸ distinct
      rw [raised]
      rcases ih kept with ⟨same, later⟩ | ⟨raised, -⟩
      · have still : tickStore rest (tickStore [u] s) = tickStore [u] s := tickStore_eq_self later
        rw [same, still]
      · rw [raised]
        rfl

theorem Joined.rebuild {s' : Store} (joined : Joined updates s s') : Joined updates s s'.rebuild :=
  ⟨joined.threads, joined.counter, joined.references⟩

theorem risen_congr_updates (same : ∀ u, u ∈ others ↔ u ∈ updates) : Risen others s ↔ Risen updates s := by
  unfold Risen
  simp only [tick_congr same]

theorem tickStore_congr (same : ∀ u, u ∈ others ↔ u ∈ updates) (s : Store) :
    tickStore others s = tickStore updates s := by
  have ticks : tick others = tick updates := funext (tick_congr same)
  have threads : tickThread others = tickThread updates := by
    funext c
    rw [tickThread, ticks, tickThread]
  rw [tickStore, threads, tickStore]

/-- Where no two messages share a reference, every message ends with the highest of its own
status and those of the updates for it, nothing else changes, and updates that are the same
but for their order and number come to the same. -/
theorem updates_join (distinct : DistinctRefs s) (updates : List Update) :
    Joined updates s (applyUpdates s updates) ∧
      ∀ others : List Update, (∀ u, u ∈ others ↔ u ∈ updates) →
        applyUpdates s others = applyUpdates s updates := by
  constructor
  · have joined := tickStore_joined updates s
    rcases applyUpdates_cases distinct updates with ⟨same, risen⟩ | ⟨raised, -⟩
    · rw [tickStore_eq_self risen] at joined
      rwa [same]
    · rw [raised]
      exact joined.rebuild
  · intro others same
    rcases applyUpdates_cases distinct updates with ⟨still, risen⟩ | ⟨raised, low⟩
    · rcases applyUpdates_cases distinct others with ⟨also, -⟩ | ⟨-, low⟩
      · rw [also, still]
      · exact absurd ((risen_congr_updates same).mpr risen) low
    · rcases applyUpdates_cases distinct others with ⟨-, risen⟩ | ⟨also, -⟩
      · exact absurd ((risen_congr_updates same).mp risen) low
      · rw [also, raised, tickStore_congr same]

/-- A text to bob and one to carol. -/
def written : Store :=
  let toBob := (({} : Store).send none (.user (utf16 "bob")) (utf16 "hi") 0).1
  (toBob.send none (.user (utf16 "carol")) (utf16 "hello") 0).1

def statuses (s : Store) : List (List (Option MessageStatus)) :=
  s.convs.entries.map fun e => e.2.messages.map (·.status)

/-- bob reads before the ack comes, and the ack comes once more. -/
theorem late_ack_is_ignored :
    let read : Update := ⟨utf16 "c1-0", .read⟩
    let sent : Update := ⟨utf16 "c1-0", .sent⟩
    Joined [read, sent] written (applyUpdates written [read, sent]) ∧
      applyUpdates written [sent, read, sent] = applyUpdates written [read, sent] ∧
      statuses (applyUpdates written [read, sent]) = [[some .read], [some .sending]] := by
  have distinct : DistinctRefs written := by
    have apart : (refs written).Nodup := by decide +kernel
    exact apart
  refine ⟨(updates_join distinct _).1, (updates_join distinct _).2 _ ?_, by decide +kernel⟩
  intro u
  simp only [List.mem_cons, List.not_mem_nil, or_false]
  constructor
  · rintro (sent | read | sent)
    · exact .inr sent
    · exact .inl read
    · exact .inr sent
  · rintro (read | sent)
    · exact .inr (.inl read)
    · exact .inl sent

end Hwfa.ConversationTicks
