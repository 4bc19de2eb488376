import Hwfa.StatusStore
import Hwfa.Machines

/-!
What a peer's status does to the statuses of the others
(`apps/mobile/src/store/statuses.ts`).

A new status replaces every one that has its id, whoever posted that, and it stays until
the time it names itself.  Both are the sender's choice: the condition `Harmless` says what
the choice has to be.
-/

namespace Hwfa.StatusIsolation

open Hwfa.Json Hwfa.Machines Hwfa.ConversationStore Hwfa.StatusStore

/-- Posted by someone else than the peer, by ourselves for instance. -/
def byOther (fromUserId : Text) (s : StatusItem) : Bool := s.mine || s.fromUserId ≠ fromUserId

def unexpired (now : Nat) (s : StatusItem) : Bool := lessThan (clock now) s.expiresAt

/-- One author's status of one id. -/
def SameStatus (s s' : StatusItem) : Prop :=
  s.mine = s'.mine ∧ s.fromUserId = s'.fromUserId ∧ identical s.id s'.id = true

def OnePerAuthor (items : List StatusItem) : Prop := items.Pairwise fun s s' => ¬ SameStatus s s'

/-- What is left once `prune` has run or another status was taken in. -/
def Updated (items : List StatusItem) (item : StatusItem) (now : Nat) (later : List StatusItem) :
    Prop :=
  prune items now = some later ∨ ∃ other, other ≠ item ∧ upsert items other now = some later

/-- What a status from a peer may do: leave what others posted as it is, give the peer no
second status of one id, and be gone a day later, once the list is changed again. -/
structure Isolates (items : List StatusItem) (fromUserId : Text) (payload : Value)
    (fromPhone : Option Text) (now : Nat) : Prop where
  frame : ∀ after, receiveStatus items fromUserId payload fromPhone now = some after →
    (after.filter (byOther fromUserId)).Perm
      ((items.filter (byOther fromUserId)).filter (unexpired now))
  unique : ∀ after, receiveStatus items fromUserId payload fromPhone now = some after →
    OnePerAuthor items → OnePerAuthor after
  lapses : ∀ after, receiveStatus items fromUserId payload fromPhone now = some after →
    ∀ t, now + STATUS_TTL_MS < t → ∀ later,
      Updated after (received fromUserId payload fromPhone) t later →
        received fromUserId payload fromPhone ∉ later

/-- The times that have to be compared can be. -/
def Taken (items : List StatusItem) (item : StatusItem) (now : Nat) : Prop :=
  (∀ s ∈ items.filter (fun s => ! identical s.id item.id) ++ [item], converts s.expiresAt) ∧
    ((kept items item now).length ≤ 1 ∨ ∀ s ∈ kept items item now, converts s.at_)

instance (items : List StatusItem) (item : StatusItem) (now : Nat) : Decidable (Taken items item now) :=
  inferInstanceAs (Decidable (_ ∧ _))

/-- A status that nothing is done with; or one whose id no unexpired status of another
author has, and which does not outlive a day. -/
def Harmless (items : List StatusItem) (fromUserId : Text) (payload : Value)
    (fromPhone : Option Text) (now : Nat) : Prop :=
  Taken items (received fromUserId payload fromPhone) now →
    (∀ s ∈ items, byOther fromUserId s = true → unexpired now s = true →
        identical s.id (payload.get "id") = false) ∧
      lessThan (clock (now + STATUS_TTL_MS + 1)) (payload.get "expiresAt") = false

instance (items : List StatusItem) (fromUserId : Text) (payload : Value) (fromPhone : Option Text)
    (now : Nat) : Decidable (Harmless items fromUserId payload fromPhone now) :=
  inferInstanceAs (Decidable (_ → _))

variable {items after later : List StatusItem} {item s : StatusItem} {fromUserId : Text}
variable {payload : Value} {fromPhone : Option Text} {now t t' : Nat}

/-! ### The list after an update -/

theorem upsert_eq_some (taken : upsert items item now = some after) :
    Taken items item now ∧ after = (kept items item now).mergeSort newestFirst := by
  unfold upsert at taken
  obtain ⟨compared, same⟩ := Option.ite_none_right_eq_some.mp taken
  cases same
  exact ⟨compared, rfl⟩

theorem upsert_of_taken (taken : Taken items item now) :
    upsert items item now = some ((kept items item now).mergeSort newestFirst) := if_pos taken

theorem kept_eq (items : List StatusItem) (item : StatusItem) (now : Nat) :
    kept items item now = ((items.filter fun s => ! identical s.id item.id) ++ [item]).filter
      (unexpired now) := rfl

/-- Whatever is listed after an update has not expired. -/
theorem unexpired_of_upsert (taken : upsert items item now = some after) (member : s ∈ after) :
    unexpired now s = true := by
  rw [(upsert_eq_some taken).2] at member
  exact (List.mem_filter.mp (List.mem_mergeSort.mp member)).2

theorem mem_of_upsert (taken : upsert items item now = some after) (member : s ∈ after) :
    s ∈ items ∨ s = item := by
  rw [(upsert_eq_some taken).2] at member
  obtain ⟨inside, -⟩ := List.mem_filter.mp (List.mem_mergeSort.mp member)
  rcases List.mem_append.mp inside with before | new
  · exact .inl (List.mem_of_mem_filter before)
  · exact .inr (List.mem_singleton.mp new)

theorem prune_eq_some (pruned : prune items now = some after) :
    after = items.filter (unexpired now) := by
  unfold prune at pruned
  obtain ⟨-, same⟩ := Option.ite_none_right_eq_some.mp pruned
  exact (Option.some.inj same).symm

theorem less_mono {a b : Int} {n : Number} (smaller : b ≤ a) (below : less (.finite a) n = true) :
    less (.finite b) n = true := by
  cases n with
  | finite q =>
    have above : a < q := of_decide_eq_true below
    exact decide_eq_true (Int.lt_of_le_of_lt smaller above)
  | infinite negative => exact below

/-- What is later than a time is later than an earlier one. -/
theorem lessThan_clock_mono {v : Value} (earlier : t' ≤ t) (later : lessThan (clock t) v = true) :
    lessThan (clock t') v = true := by
  have number (t : Nat) : toNumber (clock t) = some (some (.finite (t * one))) := rfl
  have order : (t' * one : Int) ≤ t * one :=
    Int.mul_le_mul_of_nonneg_right (Int.ofNat_le.mpr earlier) (Int.natCast_nonneg _)
  unfold lessThan at later ⊢
  rw [number] at later ⊢
  cases read : toNumber v with
  | none =>
    rw [read] at later
    cases later
  | some n =>
    rw [read] at later
    cases n with
    | none => cases later
    | some n => exact less_mono order later

/-- Who replaces a status is of the same id. -/
theorem onePerAuthor_upsert (one_each : OnePerAuthor items)
    (taken : upsert items item now = some after) : OnePerAuthor after := by
  have symmetric : ∀ {s s' : StatusItem}, ¬ SameStatus s s' → ¬ SameStatus s' s := by
    intro s s' apart same
    apply apart
    refine ⟨same.1.symm, same.2.1.symm, ?_⟩
    have alike := same.2.2
    revert alike
    unfold identical
    cases s.id with
    | primitive p =>
      cases s'.id with
      | primitive q => simp [eq_comm]
      | array _ => simp
      | object _ => simp
    | array _ => cases s'.id <;> simp
    | object _ => cases s'.id <;> simp
  rw [(upsert_eq_some taken).2]
  unfold OnePerAuthor
  rw [List.Perm.pairwise_iff symmetric (List.mergeSort_perm _ _), kept_eq]
  apply List.Pairwise.filter
  rw [List.pairwise_append]
  refine ⟨one_each.filter _, List.pairwise_singleton _ _, ?_⟩
  intro s member s' new same
  rw [List.mem_singleton.mp new] at same
  obtain ⟨-, other⟩ := List.mem_filter.mp member
  rw [same.2.2] at other
  cases other

/-! ### A single status -/

theorem byOther_received : byOther fromUserId (received fromUserId payload fromPhone) = false := by
  simp [byOther, received]

/-- What is left of the others: all but those of the new status's id. -/
theorem others_after (taken : receiveStatus items fromUserId payload fromPhone now = some after) :
    (after.filter (byOther fromUserId)).Perm (((items.filter (byOther fromUserId)).filter
      (unexpired now)).filter fun s => ! identical s.id (payload.get "id")) := by
  have list := (upsert_eq_some taken).2
  have sorted : (after.filter (byOther fromUserId)).Perm
      ((kept items (received fromUserId payload fromPhone) now).filter (byOther fromUserId)) := by
    rw [list]
    exact (List.mergeSort_perm _ _).filter _
  apply sorted.trans
  rw [kept_eq, List.filter_append, List.filter_append, List.filter_singleton, Bool.cond_eq_ite]
  have new : (if unexpired now (received fromUserId payload fromPhone) = true then
      [received fromUserId payload fromPhone] else []).filter (byOther fromUserId) = [] := by
    split
    · rw [List.filter_singleton, byOther_received]
      rfl
    · rfl
  rw [new, List.append_nil, List.filter_filter, List.filter_filter, List.filter_filter,
    List.filter_filter]
  apply List.Perm.of_eq
  apply List.filter_congr
  intro s _
  have same : (received fromUserId payload fromPhone).id = payload.get "id" := rfl
  rw [same]
  cases byOther fromUserId s <;> cases unexpired now s <;> simp

theorem unexpired_of_updated (updated : Updated items item t later) (member : s ∈ later) :
    unexpired t s = true := by
  rcases updated with pruned | ⟨other, -, taken⟩
  · rw [prune_eq_some pruned] at member
    exact (List.mem_filter.mp member).2
  · exact unexpired_of_upsert taken member

theorem isolates_of_harmless (harmless : Harmless items fromUserId payload fromPhone now) :
    Isolates items fromUserId payload fromPhone now where
  frame := by
    intro after taken
    obtain ⟨ids, -⟩ := harmless (upsert_eq_some taken).1
    have none_dropped : ((items.filter (byOther fromUserId)).filter (unexpired now)).filter
        (fun s => ! identical s.id (payload.get "id")) =
        (items.filter (byOther fromUserId)).filter (unexpired now) := by
      apply List.filter_eq_self.mpr
      intro s member
      obtain ⟨member, live⟩ := List.mem_filter.mp member
      obtain ⟨inside, other⟩ := List.mem_filter.mp member
      rw [ids s inside other live]
      rfl
    have left := others_after taken
    rwa [none_dropped] at left
  unique := fun after taken one_each => onePerAuthor_upsert one_each taken
  lapses := by
    intro after taken t late later updated member
    obtain ⟨-, expires⟩ := harmless (upsert_eq_some taken).1
    have live := unexpired_of_updated updated member
    have still : lessThan (clock (now + STATUS_TTL_MS + 1)) (payload.get "expiresAt") = true :=
      lessThan_clock_mono late live
    cases expires.symm.trans still

theorem harmless_of_isolates (isolates : Isolates items fromUserId payload fromPhone now) :
    Harmless items fromUserId payload fromPhone now := by
  intro compared
  have taken := upsert_of_taken compared
  constructor
  · intro s inside other live
    by_contra alike
    rw [Bool.not_eq_false] at alike
    have same := (others_after taken).symm.trans (isolates.frame _ taken)
    have whole := List.Sublist.eq_of_length List.filter_sublist same.length_eq
    have there : s ∈ (items.filter (byOther fromUserId)).filter (unexpired now) :=
      List.mem_filter.mpr ⟨List.mem_filter.mpr ⟨inside, other⟩, live⟩
    rw [← whole] at there
    obtain ⟨-, apart⟩ := List.mem_filter.mp there
    rw [alike] at apart
    cases apart
  · by_contra late
    rw [Bool.not_eq_false] at late
    have listed : received fromUserId payload fromPhone ∈
        (kept items (received fromUserId payload fromPhone) now).mergeSort newestFirst := by
      apply List.mem_mergeSort.mpr
      apply List.mem_filter.mpr
      refine ⟨List.mem_append_right _ (List.mem_singleton_self _), ?_⟩
      exact lessThan_clock_mono (by omega) late
    have pruned : prune ((kept items (received fromUserId payload fromPhone) now).mergeSort
        newestFirst) (now + STATUS_TTL_MS + 1) = some _ := if_pos (upsert_comparable taken)
    apply isolates.lapses _ taken _ (Nat.lt_succ_self _) _ (.inl pruned)
    exact List.mem_filter.mpr ⟨listed, late⟩

/-! ### Runs -/

/-- The store, what it received of peers and when, and when it was last changed. -/
structure Board where
  items : List StatusItem := []
  receipts : List (StatusItem × Nat) := []
  updatedAt : Nat := 0

inductive Action where
  | addOwn (text : Text) (at_ : Nat) (random : Text)
  | receiveStatus (fromUserId : Text) (payload : Value) (fromPhone : Option Text)
  | prune

structure Event where
  now : Nat
  action : Action

/-- A comparison that throws changes nothing. -/
def machine : Machine Board Event where
  start b := b = {}
  step b e :=
    if b.updatedAt ≤ e.now then
      match e.action with
      | .addOwn text at_ random => (addOwn b.items text at_ e.now random).map fun items =>
          { b with items, updatedAt := e.now }
      | .receiveStatus fromUserId payload fromPhone =>
        (receiveStatus b.items fromUserId payload fromPhone e.now).map fun items =>
          { items, receipts := (received fromUserId payload fromPhone, e.now) :: b.receipts
            updatedAt := e.now }
      | .prune => (prune b.items e.now).map fun items => { b with items, updatedAt := e.now }
    else none

def HarmlessEvent (b : Board) (e : Event) : Prop :=
  match e.action with
  | .receiveStatus fromUserId payload fromPhone =>
    Harmless b.items fromUserId payload fromPhone e.now
  | _ => True

instance (b : Board) (e : Event) : Decidable (HarmlessEvent b e) := by
  unfold HarmlessEvent
  split <;> infer_instance

/-- No peer's status is listed that was received more than a day before the list was last
changed. -/
def Lapsing (b : Board) : Prop :=
  ∀ s ∈ b.items, s.mine = false →
    ∃ r, (s, r) ∈ b.receipts ∧ b.updatedAt ≤ r + STATUS_TTL_MS

/-- What carries it: nothing is listed that had expired, and a peer's status expires within a
day. -/
structure Short (b : Board) : Prop where
  one_each : OnePerAuthor b.items
  live : ∀ s ∈ b.items, unexpired b.updatedAt s = true
  short : ∀ s ∈ b.items, s.mine = false → ∃ r, (s, r) ∈ b.receipts ∧
    lessThan (clock (r + STATUS_TTL_MS + 1)) s.expiresAt = false

theorem Short.lapsing {b : Board} (short : Short b) : Lapsing b := by
  intro s member peer
  obtain ⟨r, receipt, expires⟩ := short.short s member peer
  refine ⟨r, receipt, ?_⟩
  by_contra late
  have still : lessThan (clock (r + STATUS_TTL_MS + 1)) s.expiresAt = true :=
    lessThan_clock_mono (by omega) (short.live s member)
  cases expires.symm.trans still

theorem Short.step {b b' : Board} {e : Event} (short : Short b) (harmless : HarmlessEvent b e)
    (moved : machine.step b e = some b') : Short b' := by
  obtain ⟨-, moved⟩ := Option.ite_none_right_eq_some.mp moved
  obtain ⟨now, action⟩ := e
  cases action with
  | addOwn text at_ random =>
    obtain ⟨items, taken, rfl⟩ := Option.map_eq_some_iff.mp moved
    refine ⟨onePerAuthor_upsert short.one_each taken, fun s => unexpired_of_upsert taken, ?_⟩
    intro s member peer
    rcases mem_of_upsert taken member with before | new
    · exact short.short s before peer
    · rw [new] at peer
      cases peer
  | receiveStatus fromUserId payload fromPhone =>
    obtain ⟨items, taken, rfl⟩ := Option.map_eq_some_iff.mp moved
    refine ⟨onePerAuthor_upsert short.one_each taken, fun s => unexpired_of_upsert taken, ?_⟩
    intro s member peer
    rcases mem_of_upsert taken member with before | new
    · obtain ⟨r, receipt, expires⟩ := short.short s before peer
      exact ⟨r, List.mem_cons_of_mem _ receipt, expires⟩
    · rw [new]
      exact ⟨now, List.mem_cons_self, (harmless (upsert_eq_some taken).1).2⟩
  | prune =>
    obtain ⟨items, pruned, rfl⟩ := Option.map_eq_some_iff.mp moved
    rw [prune_eq_some pruned]
    refine ⟨short.one_each.filter _, fun s member => (List.mem_filter.mp member).2, ?_⟩
    exact fun s member => short.short s (List.mem_of_mem_filter member)

/-- **A status stays among its author's.** In every state of the list: what is received
leaves the unexpired statuses of all other authors as they are, gives its author no second
one of its id and is gone a day after it came, once the list changes, exactly if it is
harmless.  And over every run in which whatever is received is harmless, each author has at
most one status of an id and no peer's status outlives a day. -/
theorem isolates_iff_harmless (items : List StatusItem) (fromUserId : Text) (payload : Value)
    (fromPhone : Option Text) (now : Nat) :
    (Isolates items fromUserId payload fromPhone now ↔
        Harmless items fromUserId payload fromPhone now) ∧
      ∀ b, machine.Reached HarmlessEvent b → OnePerAuthor b.items ∧ Lapsing b := by
  refine ⟨⟨harmless_of_isolates, isolates_of_harmless⟩, fun b reached => ?_⟩
  have short : Short b := by
    apply reached.invariant Short
    · rintro b rfl
      refine ⟨List.Pairwise.nil, ?_, ?_⟩
      · intro s member
        cases member
      · intro s member
        cases member
    · exact fun _ _ _ holds harmless moved => holds.step harmless moved
  exact ⟨short.one_each, short.lapsing⟩

/-! ### A peer's choice -/

/-- A payload, as it was parsed. -/
def payloadOf (id : String) (at_ expiresAt : Nat) : Value :=
  .object [(utf16 "id", .string (utf16 id)), (utf16 "text", .string (utf16 "hi")),
    (utf16 "at", clock at_), (utf16 "expiresAt", clock expiresAt)]

def alices : StatusItem := received (utf16 "alice") (payloadOf "s-1" 0 STATUS_TTL_MS) none

/-- A status of alice's comes twice, and is pruned a day later; then bob posts one that has
its id. -/
def dayOfStatuses : List Event :=
  [⟨1, .receiveStatus (utf16 "alice") (payloadOf "s-1" 0 STATUS_TTL_MS) none⟩,
    ⟨2, .receiveStatus (utf16 "alice") (payloadOf "s-1" 0 STATUS_TTL_MS) none⟩,
    ⟨STATUS_TTL_MS, .prune⟩,
    ⟨STATUS_TTL_MS + 1, .receiveStatus (utf16 "bob") (payloadOf "s-1" STATUS_TTL_MS (2 * STATUS_TTL_MS))
      none⟩]

/-- A status of bob's leaves alice's as it is, and none of that day outlives its time. -/
theorem statuses_of_a_day_are_isolated :
    Isolates [alices] (utf16 "bob") (payloadOf "s-2" 1 (STATUS_TTL_MS + 1)) none 1 ∧
      ∃ b, machine.Reached HarmlessEvent b ∧ b.items.map (·.fromUserId) = [utf16 "bob"] ∧
        b.receipts.length = 3 ∧ OnePerAuthor b.items ∧ Lapsing b := by
  have isolated := isolates_iff_harmless [alices] (utf16 "bob")
    (payloadOf "s-2" 1 (STATUS_TTL_MS + 1)) none 1
  have observed : (machine.checkedRun HarmlessEvent {} dayOfStatuses).map
      (fun b => (b.items.map (·.fromUserId), b.receipts.length)) = some ([utf16 "bob"], 3) := by
    decide +kernel
  obtain ⟨b, reached, seen⟩ := Machine.reached_of_observed observed (.start rfl)
  rw [Prod.mk.injEq] at seen
  exact ⟨isolated.1.mpr (by decide +kernel), b, reached, seen.1, seen.2, isolated.2 b reached⟩

/-- A status of mallory's that has the id of alice's removes it; and one that names a time a
hundred days on is still listed when the list is pruned after two. -/
theorem statuses_are_not_isolated :
    (receiveStatus [alices] (utf16 "mallory") (payloadOf "s-1" 1 STATUS_TTL_MS) none 1).map
        (·.map (·.fromUserId)) = some [utf16 "mallory"] ∧
      ((receiveStatus [] (utf16 "mallory") (payloadOf "s-2" 1 (100 * STATUS_TTL_MS)) none 1).bind
        fun after => prune after (2 * STATUS_TTL_MS)).map (·.map (·.fromUserId)) =
          some [utf16 "mallory"] ∧
      ¬ ∀ items fromUserId payload fromPhone now,
        Isolates items fromUserId payload fromPhone now := by
  refine ⟨by decide +kernel, by decide +kernel, fun all => ?_⟩
  have isolates := all [alices] (utf16 "mallory") (payloadOf "s-1" 1 STATUS_TTL_MS) none 1
  have taken :
      Taken [alices] (received (utf16 "mallory") (payloadOf "s-1" 1 STATUS_TTL_MS) none) 1 := by
    decide +kernel
  have ids := (harmless_of_isolates isolates taken).1 alices (List.mem_singleton_self _)
    (by decide +kernel) (by decide +kernel)
  exact absurd ids (by decide +kernel)

end Hwfa.StatusIsolation
