import Hwfa.ConversationStore
import Hwfa.Machines

/-!
Who is typing (`apps/mobile/src/store/typing.ts`).

The answers come from a snapshot for each conversation, over a map of expiry times
that a timer sweeps.  The signals that arrived say what the answer should be:
`Typing` reads it off the log of a run, and the invariant `Tracks` ties the map, the
snapshots and the timer to that log.

The listeners are left out.
-/

namespace Hwfa.TypingIndicator

open Hwfa.Json Hwfa.Maps Hwfa.Machines Hwfa.ConversationStore

def TYPING_TTL_MS : Nat := 6000

/-- The sender ids of a conversation, and when each of them expires. -/
abbrev Senders := FinMap Text Nat

structure TypingStore where
  byConv : FinMap Key Senders := ∅
  snapshots : FinMap Key (List Text) := ∅
  /-- whether the interval is set -/
  sweepTimer : Bool := false

/-- The ids that have not expired, in the order in which they came. -/
def Senders.live (senders : Senders) (now : Nat) : List Text :=
  (senders.entries.filter fun entry => now < entry.2).map (·.1)

namespace TypingStore

def compute (s : TypingStore) (conversationId : Key) (now : Nat) : List Text :=
  ((s.byConv.lookup conversationId).getD ∅).live now

def invalidate (s : TypingStore) (conversationId : Key) (now : Nat) : TypingStore :=
  if s.snapshots.lookup conversationId = some (s.compute conversationId now) then s
  else { s with snapshots := s.snapshots.put conversationId (s.compute conversationId now) }

def ensureSweep (s : TypingStore) : TypingStore := { s with sweepTimer := true }

/-- A conversation's senders after one was removed: none are kept of a conversation in
which nobody is left. -/
def setSenders (s : TypingStore) (conversationId : Key) (senders : Senders) : TypingStore :=
  { s with byConv := if senders.entries = [] then s.byConv.erase conversationId
                     else s.byConv.put conversationId senders }

def receiveTyping (s : TypingStore) (conversationId : Key) (senderId : Text) (typing : Bool)
    (now : Nat) : TypingStore :=
  match typing, s.byConv.lookup conversationId with
  | true, found =>
    let senders := (found.getD ∅).put senderId (now + TYPING_TTL_MS)
    ({ s with byConv := s.byConv.put conversationId senders }.ensureSweep).invalidate
      conversationId now
  | false, some senders =>
    (s.setSenders conversationId (senders.erase senderId)).invalidate conversationId now
  | false, none => s

def clear (s : TypingStore) : TypingStore :=
  if s.byConv.entries = [] then s else { s with byConv := ∅, snapshots := ∅ }

def getTyping (s : TypingStore) (conversationId : Key) (now : Nat) : List Text × TypingStore :=
  match s.snapshots.lookup conversationId with
  | some cached => (cached, s)
  | none =>
    let fresh := s.compute conversationId now
    (fresh, { s with snapshots := s.snapshots.put conversationId fresh })

/-- One conversation of the sweep; `changed` is of the sweep as a whole, so what comes
after a conversation that changed is computed again too. -/
def sweepOne (now : Nat) (s : TypingStore × Bool) (entry : Σ _ : Key, Senders) :
    TypingStore × Bool :=
  let changed := s.2 || entry.2.entries.any fun sender => sender.2 ≤ now
  let swept := s.1.setSenders entry.1 (entry.2.keep fun _ expiry => now < expiry)
  (if changed then swept.invalidate entry.1 now else swept, changed)

/-- A tick of the interval, which ends itself when nobody is left. -/
def sweep (s : TypingStore) (now : Nat) : TypingStore :=
  let swept := (s.byConv.entries.foldl (sweepOne now) (s, false)).1
  { swept with sweepTimer := if swept.byConv.entries = [] then false else swept.sweepTimer }

end TypingStore

/-! ### Runs -/

inductive Action where
  | receiveTyping (conversationId : Key) (senderId : Text) (typing : Bool)
  | clear
  | getTyping (conversationId : Key)
  | sweep
  deriving DecidableEq

structure Event where
  at_ : Nat
  action : Action
  deriving DecidableEq

/-- The store, and what happened to it, the latest event first. -/
structure History where
  store : TypingStore := {}
  log : List Event := []

/-- When the latest event was. -/
def now : List Event → Nat
  | [] => 0
  | e :: _ => e.at_

/-- What an event makes of the store; a tick comes only while the interval is set. -/
def perform (s : TypingStore) (e : Event) : Option TypingStore :=
  match e.action with
  | .receiveTyping c sender typing => some (s.receiveTyping c sender typing e.at_)
  | .clear => some s.clear
  | .getTyping c => some (s.getTyping c e.at_).2
  | .sweep => if s.sweepTimer then some (s.sweep e.at_) else none

def machine : Machine History Event where
  start h := h = {}
  step h e :=
    if now h.log ≤ e.at_ then
      (perform h.store e).map fun store => { store, log := e :: h.log }
    else none

/-! ### What the log says -/

/-- The latest signal of a sender in a conversation since the last `clear`, and when it
came. -/
def latest (c : Key) (sender : Text) : List Event → Option (Bool × Nat)
  | [] => none
  | e :: before =>
    match e.action with
    | .receiveTyping c' sender' typing =>
      if c' = c ∧ sender' = sender then some (typing, e.at_) else latest c sender before
    | .clear => none
    | _ => latest c sender before

/-- The latest signal says that the sender is typing, and it came less than
`TYPING_TTL_MS` ago. -/
def Typing (log : List Event) (c : Key) (sender : Text) (t : Nat) : Prop :=
  ∃ sent, latest c sender log = some (true, sent) ∧ t < sent + TYPING_TTL_MS

/-! ### Who is live -/

theorem Senders.mem_live {senders : Senders} {now : Nat} {sender : Text} :
    sender ∈ senders.live now ↔ ∃ expiry, senders.lookup sender = some expiry ∧ now < expiry := by
  unfold Senders.live
  constructor
  · intro member
    obtain ⟨⟨id, expiry⟩, inside, rfl⟩ := List.mem_map.mp member
    obtain ⟨inside, later⟩ := List.mem_filter.mp inside
    exact ⟨expiry, AList.mem_lookup_iff.mpr inside, of_decide_eq_true later⟩
  · rintro ⟨expiry, found, later⟩
    apply List.mem_map.mpr
    refine ⟨⟨sender, expiry⟩, List.mem_filter.mpr ⟨AList.mem_lookup_iff.mp found, ?_⟩, rfl⟩
    exact decide_eq_true later

theorem Senders.nodup_live (senders : Senders) (now : Nat) : (senders.live now).Nodup :=
  List.Nodup.sublist (List.filter_sublist.map _) senders.nodupKeys

/-- Where nobody has expired, everybody is live. -/
theorem Senders.live_of_later {senders : Senders} {now : Nat}
    (later : ∀ entry ∈ senders.entries, now < entry.2) : senders.live now = senders.keys := by
  have all : senders.entries.filter (fun entry => now < entry.2) = senders.entries :=
    List.filter_eq_self.mpr fun entry member => decide_eq_true (later entry member)
  rw [Senders.live, all]
  rfl

variable {s : TypingStore} {c c' : Key} {sender : Text} {t t' : Nat} {senders : Senders}

namespace TypingStore

/-- When a sender of a conversation expires. -/
def expiryOf (s : TypingStore) (c : Key) (sender : Text) : Option Nat :=
  (s.byConv.lookup c).bind fun senders => senders.lookup sender

theorem mem_compute :
    sender ∈ s.compute c t ↔ ∃ expiry, s.expiryOf c sender = some expiry ∧ t < expiry := by
  unfold compute expiryOf
  rw [Senders.mem_live]
  cases s.byConv.lookup c with
  | none => simp
  | some senders => rfl

theorem nodup_compute : (s.compute c t).Nodup := Senders.nodup_live _ _

theorem compute_congr {s' : TypingStore} (same : s'.byConv.lookup c = s.byConv.lookup c) (t : Nat) :
    s'.compute c t = s.compute c t := by
  unfold compute
  rw [same]

/-- The snapshot of a conversation, if there is one, is what is computed at a time. -/
def Current (s : TypingStore) (c : Key) (t : Nat) : Prop :=
  ∀ cached, s.snapshots.lookup c = some cached → cached = s.compute c t

theorem Current.congr {s' : TypingStore} (current : s.Current c t)
    (same : s'.byConv.lookup c = s.byConv.lookup c)
    (cached : s'.snapshots.lookup c = s.snapshots.lookup c) : s'.Current c t := by
  intro l found
  rw [compute_congr same]
  exact current l (cached ▸ found)

/-- Where the computed value has not changed since. -/
theorem Current.later (current : s.Current c t) (same : s.compute c t = s.compute c t') :
    s.Current c t' := fun cached found => (current cached found).trans same

theorem getTyping_of_current (current : s.Current c t) : (s.getTyping c t).1 = s.compute c t := by
  unfold getTyping
  cases found : s.snapshots.lookup c with
  | none => rfl
  | some cached => exact current cached found

/-! ### What the operations change -/

@[simp] theorem byConv_invalidate : (s.invalidate c t).byConv = s.byConv := by
  unfold invalidate
  split <;> rfl

@[simp] theorem sweepTimer_invalidate : (s.invalidate c t).sweepTimer = s.sweepTimer := by
  unfold invalidate
  split <;> rfl

theorem snapshots_invalidate : (s.invalidate c t).snapshots.lookup c' =
    if c' = c then some (s.compute c t) else s.snapshots.lookup c' := by
  unfold invalidate
  split
  · next same =>
    split
    · next here => rw [here, same]
    · rfl
  · exact FinMap.lookup_put_apply ..

theorem current_invalidate : (s.invalidate c t).Current c t := by
  intro cached found
  rw [snapshots_invalidate, if_pos rfl] at found
  cases found
  exact (compute_congr (by rw [byConv_invalidate]) t).symm

/-- Recomputing the snapshot of one conversation leaves those of the others. -/
theorem Current.invalidate (current : s.Current c' t') (other : c' ≠ c) :
    (s.invalidate c t).Current c' t' :=
  current.congr (by rw [byConv_invalidate]) (by rw [snapshots_invalidate, if_neg other])

theorem lookup_setSenders : (s.setSenders c senders).byConv.lookup c' =
    if c' = c then (if senders.entries = [] then none else some senders)
    else s.byConv.lookup c' := by
  unfold setSenders
  by_cases empty : senders.entries = []
  · rw [if_pos empty, if_pos empty]
    exact FinMap.lookup_erase_apply ..
  · rw [if_neg empty, if_neg empty]
    exact FinMap.lookup_put_apply ..

theorem expiryOf_setSenders : (s.setSenders c senders).expiryOf c' sender =
    if c' = c then senders.lookup sender else s.expiryOf c' sender := by
  unfold expiryOf
  rw [lookup_setSenders]
  by_cases here : c' = c
  · rw [if_pos here, if_pos here]
    split
    · next empty =>
      have nobody : senders = ∅ := AList.ext empty
      rw [nobody]
      rfl
    · rfl
  · rw [if_neg here, if_neg here]

theorem expiryOf_invalidate : (s.invalidate c t).expiryOf c' sender = s.expiryOf c' sender := by
  unfold expiryOf
  rw [byConv_invalidate]

theorem expiryOf_receiveTyping (typing : Bool) {sender' : Text} :
    (s.receiveTyping c sender typing t).expiryOf c' sender' =
      if c' = c ∧ sender' = sender then (if typing then some (t + TYPING_TTL_MS) else none)
      else s.expiryOf c' sender' := by
  unfold receiveTyping
  cases typing with
  | true =>
    simp only [if_true]
    rw [expiryOf_invalidate]
    simp only [expiryOf, ensureSweep]
    rw [FinMap.lookup_put_apply]
    by_cases here : c' = c
    · subst here
      rw [if_pos rfl, Option.bind_some, FinMap.lookup_put_apply]
      by_cases same : sender' = sender
      · rw [if_pos same, if_pos ⟨rfl, same⟩]
      · rw [if_neg same, if_neg fun both => same both.2]
        cases s.byConv.lookup c' with
        | none => rfl
        | some senders => rfl
    · rw [if_neg here, if_neg fun both => here both.1]
  | false =>
    simp only [Bool.false_eq_true, if_false]
    cases found : s.byConv.lookup c with
    | none =>
      simp only
      split
      · next same =>
        obtain ⟨rfl, rfl⟩ := same
        unfold expiryOf
        rw [found]
        rfl
      · rfl
    | some senders =>
      simp only
      rw [expiryOf_invalidate, expiryOf_setSenders, FinMap.lookup_erase_apply]
      by_cases here : c' = c
      · subst here
        rw [if_pos rfl]
        by_cases same : sender' = sender
        · rw [if_pos same, if_pos ⟨rfl, same⟩]
        · rw [if_neg same, if_neg fun both => same both.2]
          unfold expiryOf
          rw [found]
          rfl
      · rw [if_neg here, if_neg fun both => here both.1]

/-! ### The sweep -/

/-- What is left of a conversation's senders. -/
def remaining (senders : Senders) (t : Nat) : Senders := senders.keep fun _ expiry => t < expiry

/-- The outcome of a sweep for one conversation: what has expired is dropped, and the
snapshot is computed again unless nobody has expired. -/
structure Swept (before after : TypingStore) (c : Key) (senders : Senders) (t : Nat) : Prop where
  left : after.byConv.lookup c =
    if (remaining senders t).entries = [] then none else some (remaining senders t)
  snapshot : after.Current c t ∨
    (∀ entry ∈ senders.entries, t < entry.2) ∧
      after.snapshots.lookup c = before.snapshots.lookup c

theorem sweepOne_swept (changed : Bool) (senders : Senders) :
    Swept s (sweepOne t (s, changed) ⟨c, senders⟩).1 c senders t := by
  unfold sweepOne
  by_cases renewed : changed || senders.entries.any fun sender => sender.2 ≤ t
  · simp only [renewed, if_true]
    constructor
    · rw [byConv_invalidate, lookup_setSenders, if_pos rfl]
      rfl
    · exact .inl current_invalidate
  · simp only [renewed, Bool.false_eq_true, if_false]
    constructor
    · rw [lookup_setSenders, if_pos rfl]
      rfl
    · refine .inr ⟨fun entry member => ?_, rfl⟩
      by_contra expired
      apply renewed
      have some_expired : senders.entries.any (fun sender => sender.2 ≤ t) = true :=
        List.any_eq_true.mpr ⟨entry, member, decide_eq_true (Nat.not_lt.mp expired)⟩
      rw [some_expired, Bool.or_true]

theorem sweepOne_other (changed : Bool) (senders : Senders) (other : c' ≠ c) :
    (sweepOne t (s, changed) ⟨c, senders⟩).1.byConv.lookup c' = s.byConv.lookup c' ∧
      (sweepOne t (s, changed) ⟨c, senders⟩).1.snapshots.lookup c' = s.snapshots.lookup c' := by
  unfold sweepOne
  by_cases renewed : changed || senders.entries.any fun sender => sender.2 ≤ t
  · simp only [renewed, if_true]
    rw [byConv_invalidate, lookup_setSenders, if_neg other, snapshots_invalidate, if_neg other]
    exact ⟨rfl, rfl⟩
  · simp only [renewed, Bool.false_eq_true, if_false]
    rw [lookup_setSenders, if_neg other]
    exact ⟨rfl, rfl⟩

/-- The sweep goes through the conversations one by one, and each is left alone after its
turn. -/
theorem foldl_sweepOne {entries : List (Σ _ : Key, Senders)} (distinct : entries.NodupKeys)
    (changed : Bool) (c : Key) :
    (entries.dlookup c = none →
      (entries.foldl (sweepOne t) (s, changed)).1.byConv.lookup c = s.byConv.lookup c ∧
      (entries.foldl (sweepOne t) (s, changed)).1.snapshots.lookup c = s.snapshots.lookup c) ∧
    ∀ senders, entries.dlookup c = some senders →
      Swept s (entries.foldl (sweepOne t) (s, changed)).1 c senders t := by
  induction entries generalizing s changed with
  | nil =>
    constructor
    · exact fun _ => ⟨rfl, rfl⟩
    · intro senders found
      cases found
  | cons entry rest ih =>
    obtain ⟨d, own⟩ := entry
    obtain ⟨absent, distinct⟩ := List.nodupKeys_cons.mp distinct
    rw [List.foldl_cons]
    have later := ih (s := (sweepOne t (s, changed) ⟨d, own⟩).1) distinct
      (sweepOne t (s, changed) ⟨d, own⟩).2
    by_cases here : c = d
    · subst here
      have gone : rest.dlookup c = none := List.dlookup_eq_none.mpr absent
      obtain ⟨kept, cached⟩ := later.1 gone
      rw [List.dlookup_cons_eq]
      refine ⟨fun missing => ?_, fun senders found => ?_⟩
      · cases missing
      · cases found
        obtain ⟨left, snapshot⟩ := sweepOne_swept (s := s) (t := t) (c := c) changed own
        refine ⟨kept.trans left, ?_⟩
        rcases snapshot with current | ⟨all, same⟩
        · exact .inl (current.congr kept cached)
        · exact .inr ⟨all, cached.trans same⟩
    · rw [List.dlookup_cons_ne _ _ here]
      obtain ⟨kept, cached⟩ := sweepOne_other (s := s) (t := t) changed own here
      refine ⟨fun missing => ?_, fun senders found => ?_⟩
      · obtain ⟨same, snapshot⟩ := later.1 missing
        exact ⟨same.trans kept, snapshot.trans cached⟩
      · obtain ⟨left, snapshot⟩ := later.2 senders found
        refine ⟨left, ?_⟩
        rcases snapshot with current | ⟨all, same⟩
        · exact .inl current
        · exact .inr ⟨all, same.trans cached⟩

theorem sweepTimer_foldl (entries : List (Σ _ : Key, Senders)) (s : TypingStore) (changed : Bool) :
    (entries.foldl (sweepOne t) (s, changed)).1.sweepTimer = s.sweepTimer := by
  induction entries generalizing s changed with
  | nil => rfl
  | cons entry rest ih =>
    rw [List.foldl_cons, ih]
    simp only [sweepOne]
    split
    · exact sweepTimer_invalidate
    · rfl

theorem sweep_other (nobody : s.byConv.lookup c = none) :
    (s.sweep t).byConv.lookup c = none ∧
      (s.sweep t).snapshots.lookup c = s.snapshots.lookup c := by
  obtain ⟨kept, cached⟩ := (foldl_sweepOne s.byConv.nodupKeys false c).1 nobody
  exact ⟨kept.trans nobody, cached⟩

theorem sweep_swept (found : s.byConv.lookup c = some senders) :
    Swept s (s.sweep t) c senders t := by
  obtain ⟨left, snapshot⟩ := (foldl_sweepOne (t := t) (s := s) s.byConv.nodupKeys false c).2 _ found
  exact ⟨left, snapshot⟩

/-- A tick drops what has expired, and nothing else. -/
theorem expiryOf_sweep :
    (s.sweep t).expiryOf c sender = (s.expiryOf c sender).filter (t < ·) := by
  unfold expiryOf
  cases found : s.byConv.lookup c with
  | none =>
    rw [(sweep_other found).1]
    rfl
  | some senders =>
    rw [(sweep_swept found).left, Option.bind_some]
    have kept : (remaining senders t).lookup sender = (senders.lookup sender).filter (t < ·) :=
      FinMap.lookup_keep_apply ..
    split
    · next empty =>
      have nobody : remaining senders t = ∅ := AList.ext empty
      rw [← kept, nobody]
      rfl
    · exact kept

/-- After a tick every snapshot is what is computed then: one that was not computed again
was of senders none of whom has expired. -/
theorem Current.sweep (current : s.Current c t') (before : t' ≤ t) : (s.sweep t).Current c t := by
  cases found : s.byConv.lookup c with
  | none =>
    obtain ⟨nobody, cached⟩ := sweep_other (t := t) found
    apply Current.congr _ (nobody.trans found.symm) cached
    apply current.later
    unfold compute
    rw [found]
    rfl
  | some senders =>
    obtain ⟨left, fresh | ⟨later, same⟩⟩ := sweep_swept (t := t) found
    · exact fresh
    · have whole : remaining senders t = senders :=
        AList.ext (List.filter_eq_self.mpr fun entry member => decide_eq_true (later entry member))
      rw [whole] at left
      have all : s.compute c t' = (s.sweep t).compute c t := by
        unfold compute
        rw [found, left]
        split
        · next empty =>
          have nobody : senders = ∅ := AList.ext empty
          rw [nobody]
          rfl
        · have sooner : ∀ entry ∈ senders.entries, t' < entry.2 :=
            fun entry member => Nat.lt_of_le_of_lt before (later entry member)
          exact (Senders.live_of_later sooner).trans (Senders.live_of_later later).symm
      intro cached is_cached
      rw [same] at is_cached
      exact (current cached is_cached).trans all

/-- A signal leaves the snapshot of its conversation up to date. -/
theorem Current.receiveTyping (current : s.Current c t') (typing : Bool) :
    (s.receiveTyping c sender typing t).Current c t := by
  unfold TypingStore.receiveTyping
  cases typing with
  | true => exact current_invalidate
  | false =>
    cases found : s.byConv.lookup c with
    | some senders => exact current_invalidate
    | none =>
      apply current.later
      unfold compute
      rw [found]
      rfl

/-- A signal for another conversation leaves the snapshot alone. -/
theorem Current.receiveTyping_other (current : s.Current c t') (other : c ≠ c')
    (typing : Bool) : (s.receiveTyping c' sender typing t).Current c t' := by
  unfold TypingStore.receiveTyping
  cases typing with
  | true =>
    apply Current.invalidate _ other
    apply current.congr
    · exact (FinMap.lookup_put_apply ..).trans (if_neg other)
    · rfl
  | false =>
    cases s.byConv.lookup c' with
    | none => exact current
    | some senders =>
      apply Current.invalidate _ other
      apply current.congr
      · rw [lookup_setSenders, if_neg other]
      · rfl

theorem Current.getTyping (current : s.Current c t') (c' : Key) :
    (s.getTyping c' t).2.Current c t' ∨ (s.getTyping c' t).2.Current c t := by
  unfold TypingStore.getTyping
  cases found : s.snapshots.lookup c' with
  | some cached => exact .inl current
  | none =>
    by_cases here : c = c'
    · subst here
      refine .inr fun cached is_cached => ?_
      rw [FinMap.lookup_put_apply, if_pos rfl] at is_cached
      cases is_cached
      rfl
    · refine .inl (current.congr rfl ?_)
      exact (FinMap.lookup_put_apply ..).trans (if_neg here)

theorem byConv_getTyping : (s.getTyping c t).2.byConv = s.byConv := by
  unfold getTyping
  cases s.snapshots.lookup c <;> rfl

theorem sweepTimer_getTyping : (s.getTyping c t).2.sweepTimer = s.sweepTimer := by
  unfold getTyping
  cases s.snapshots.lookup c <;> rfl

theorem lookup_clear : s.clear.byConv.lookup c = none := by
  unfold clear
  split
  · next empty =>
    have nobody : s.byConv = ∅ := AList.ext empty
    rw [nobody]
    rfl
  · rfl

/-- Where the store is cleared, no snapshot is left that says anything. -/
theorem Current.clear (current : s.Current c t) : s.clear.Current c t := by
  unfold TypingStore.clear
  split
  · exact current
  · intro cached found
    cases found

/-- The interval is set whenever somebody may have to be dropped. -/
def Ticking (s : TypingStore) : Prop :=
  ∀ c senders, s.byConv.lookup c = some senders → s.sweepTimer = true

theorem Ticking.receiveTyping (ticking : s.Ticking) (typing : Bool) :
    (s.receiveTyping c sender typing t).Ticking := by
  unfold TypingStore.receiveTyping
  cases typing with
  | true =>
    intro d senders _
    exact sweepTimer_invalidate
  | false =>
    cases found : s.byConv.lookup c with
    | none => exact ticking
    | some senders =>
      intro _ _ _
      exact sweepTimer_invalidate.trans (ticking c senders found)

theorem Ticking.sweep (on : s.sweepTimer = true) : (s.sweep t).Ticking := by
  intro c senders found
  have still : (s.byConv.entries.foldl (sweepOne t) (s, false)).1.sweepTimer = true :=
    (sweepTimer_foldl ..).trans on
  have occupied : (s.sweep t).byConv.entries ≠ [] := by
    intro empty
    have nobody : (s.sweep t).byConv = ∅ := AList.ext empty
    rw [nobody] at found
    cases found
  unfold TypingStore.sweep
  exact (if_neg occupied).trans still

end TypingStore

/-! ### The store and the log -/

/-- The event after which the answer for a conversation is what it should be. -/
def Refreshes (e : Event) (c : Key) : Prop :=
  match e.action with
  | .receiveTyping c' _ _ => c' = c
  | .sweep => True
  | _ => False

/-- Every entry of the map is the latest signal of its sender, everyone who is typing has
one, and a snapshot is what was computed at some time since the entries last changed. -/
structure Tracks (h : History) : Prop where
  sound : ∀ c sender expiry, h.store.expiryOf c sender = some expiry →
    ∃ sent, latest c sender h.log = some (true, sent) ∧ expiry = sent + TYPING_TTL_MS
  complete : ∀ c sender, Typing h.log c sender (now h.log) → (h.store.expiryOf c sender).isSome
  snapshot : ∀ c, ∃ t ≤ now h.log, h.store.Current c t
  refreshed : ∀ e ∈ h.log.head?, ∀ c, Refreshes e c → h.store.Current c e.at_
  ticking : h.store.Ticking

theorem Tracks.typing_iff {h : History} (tracks : Tracks h) (later : now h.log ≤ t) :
    sender ∈ h.store.compute c t ↔ Typing h.log c sender t := by
  rw [TypingStore.mem_compute]
  constructor
  · rintro ⟨expiry, found, live⟩
    obtain ⟨sent, signal, rfl⟩ := tracks.sound c sender expiry found
    exact ⟨sent, signal, live⟩
  · rintro ⟨sent, signal, live⟩
    have known := tracks.complete c sender ⟨sent, signal, Nat.lt_of_le_of_lt later live⟩
    obtain ⟨expiry, found⟩ := Option.isSome_iff_exists.mp known
    obtain ⟨sent', signal', rfl⟩ := tracks.sound c sender expiry found
    cases signal.symm.trans signal'
    exact ⟨_, found, live⟩

/-- Whoever is typing was typing before. -/
theorem Typing.mono {log : List Event} (typing : Typing log c sender t) (before : t' ≤ t) :
    Typing log c sender t' := by
  obtain ⟨sent, signal, live⟩ := typing
  exact ⟨sent, signal, Nat.lt_of_le_of_lt before live⟩

theorem Tracks.receiveTyping {h : History} (tracks : Tracks h) (in_time : now h.log ≤ t)
    (typing : Bool) :
    Tracks ⟨h.store.receiveTyping c' sender typing t,
      ⟨t, .receiveTyping c' sender typing⟩ :: h.log⟩ := by
  constructor
  · intro c sender' expiry found
    rw [TypingStore.expiryOf_receiveTyping] at found
    simp only [latest]
    by_cases same : c = c' ∧ sender' = sender
    · rw [if_pos same] at found
      obtain ⟨on, expires⟩ := Option.ite_none_right_eq_some.mp found
      cases expires
      obtain ⟨rfl, rfl⟩ := same
      exact ⟨t, by rw [if_pos ⟨rfl, rfl⟩, on], rfl⟩
    · rw [if_neg same] at found
      obtain ⟨sent, signal, expires⟩ := tracks.sound c sender' expiry found
      refine ⟨sent, ?_, expires⟩
      rw [if_neg fun both => same ⟨both.1.symm, both.2.symm⟩]
      exact signal
  · rintro c sender' ⟨sent, signal, live⟩
    simp only [latest] at signal
    rw [TypingStore.expiryOf_receiveTyping]
    by_cases same : c = c' ∧ sender' = sender
    · rw [if_pos ⟨same.1.symm, same.2.symm⟩] at signal
      cases signal
      rw [if_pos same]
      rfl
    · rw [if_neg fun both => same ⟨both.1.symm, both.2.symm⟩] at signal
      rw [if_neg same]
      apply tracks.complete c sender'
      exact ⟨sent, signal, Nat.lt_of_le_of_lt in_time live⟩
  · intro c
    obtain ⟨t₀, before, current⟩ := tracks.snapshot c
    by_cases here : c = c'
    · subst here
      exact ⟨t, Nat.le_refl t, current.receiveTyping typing⟩
    · exact ⟨t₀, Nat.le_trans before in_time, current.receiveTyping_other here typing⟩
  · intro e last c refreshes
    cases last
    cases refreshes
    obtain ⟨t₀, -, current⟩ := tracks.snapshot c'
    exact current.receiveTyping typing
  · exact tracks.ticking.receiveTyping typing

theorem Tracks.clear {h : History} (tracks : Tracks h) (in_time : now h.log ≤ t) :
    Tracks ⟨h.store.clear, ⟨t, .clear⟩ :: h.log⟩ := by
  constructor
  · intro c sender expiry found
    unfold TypingStore.expiryOf at found
    rw [TypingStore.lookup_clear] at found
    cases found
  · rintro c sender ⟨sent, signal, -⟩
    cases signal
  · intro c
    obtain ⟨t₀, before, current⟩ := tracks.snapshot c
    exact ⟨t₀, Nat.le_trans before in_time, current.clear⟩
  · intro e last c refreshes
    cases last
    cases refreshes
  · intro c senders found
    rw [TypingStore.lookup_clear] at found
    cases found

theorem Tracks.getTyping {h : History} (tracks : Tracks h) (in_time : now h.log ≤ t) :
    Tracks ⟨(h.store.getTyping c' t).2, ⟨t, .getTyping c'⟩ :: h.log⟩ := by
  have same (c : Key) (sender : Text) :
      (h.store.getTyping c' t).2.expiryOf c sender = h.store.expiryOf c sender := by
    unfold TypingStore.expiryOf
    rw [TypingStore.byConv_getTyping]
  constructor
  · intro c sender expiry found
    exact tracks.sound c sender expiry ((same c sender).symm.trans found)
  · rintro c sender ⟨sent, signal, live⟩
    rw [same]
    apply tracks.complete c sender
    exact ⟨sent, signal, Nat.lt_of_le_of_lt in_time live⟩
  · intro c
    obtain ⟨t₀, before, current⟩ := tracks.snapshot c
    rcases current.getTyping (t := t) c' with kept | fresh
    · exact ⟨t₀, Nat.le_trans before in_time, kept⟩
    · exact ⟨t, Nat.le_refl t, fresh⟩
  · intro e last c refreshes
    cases last
    cases refreshes
  · intro c senders found
    rw [TypingStore.byConv_getTyping] at found
    exact TypingStore.sweepTimer_getTyping.trans (tracks.ticking c senders found)

theorem Tracks.sweep {h : History} (tracks : Tracks h) (in_time : now h.log ≤ t)
    (on : h.store.sweepTimer = true) : Tracks ⟨h.store.sweep t, ⟨t, .sweep⟩ :: h.log⟩ := by
  constructor
  · intro c sender expiry found
    rw [TypingStore.expiryOf_sweep] at found
    exact tracks.sound c sender expiry (Option.filter_eq_some_iff.mp found).1
  · rintro c sender ⟨sent, signal, live⟩
    have known : (h.store.expiryOf c sender).isSome :=
      tracks.complete c sender ⟨sent, signal, Nat.lt_of_le_of_lt in_time live⟩
    obtain ⟨expiry, found⟩ := Option.isSome_iff_exists.mp known
    obtain ⟨sent', signal', rfl⟩ := tracks.sound c sender expiry found
    cases signal.symm.trans signal'
    apply Option.isSome_iff_exists.mpr
    refine ⟨sent + TYPING_TTL_MS, ?_⟩
    rw [TypingStore.expiryOf_sweep]
    exact Option.filter_eq_some_iff.mpr ⟨found, decide_eq_true live⟩
  · intro c
    obtain ⟨t₀, before, current⟩ := tracks.snapshot c
    exact ⟨t, Nat.le_refl t, current.sweep (Nat.le_trans before in_time)⟩
  · intro e last c _
    cases last
    obtain ⟨t₀, before, current⟩ := tracks.snapshot c
    exact current.sweep (Nat.le_trans before in_time)
  · exact TypingStore.Ticking.sweep on

theorem Tracks.step {h h' : History} {e : Event} (tracks : Tracks h)
    (moved : machine.step h e = some h') : Tracks h' := by
  obtain ⟨in_time, moved⟩ := Option.ite_none_right_eq_some.mp moved
  obtain ⟨store, performed, rfl⟩ := Option.map_eq_some_iff.mp moved
  obtain ⟨t, action⟩ := e
  cases action with
  | receiveTyping c sender typing =>
    cases performed
    exact tracks.receiveTyping in_time typing
  | clear =>
    cases performed
    exact tracks.clear in_time
  | getTyping c =>
    cases performed
    exact tracks.getTyping in_time
  | sweep =>
    obtain ⟨on, swept⟩ := Option.ite_none_right_eq_some.mp performed
    cases swept
    exact tracks.sweep in_time on

theorem tracks {h : History} (reached : machine.Reachable h) : Tracks h := by
  apply reached.invariant Tracks
  · rintro h rfl
    constructor
    · intro c sender expiry found
      cases found
    · rintro c sender ⟨sent, signal, -⟩
      cases signal
    · intro c
      refine ⟨0, Nat.le_refl 0, fun cached found => ?_⟩
      cases found
    · intro e last
      cases last
    · intro c senders found
      cases found
  · exact fun _ _ _ holds _ moved => holds.step moved

/-- Whoever is listed for a conversation has an entry. -/
theorem Tracks.entry_of_listed {h : History} (tracks : Tracks h)
    (listed : sender ∈ (h.store.getTyping c t).1) :
    ∃ senders, h.store.byConv.lookup c = some senders := by
  have computed : ∃ t, sender ∈ h.store.compute c t := by
    unfold TypingStore.getTyping at listed
    cases found : h.store.snapshots.lookup c with
    | none =>
      rw [found] at listed
      exact ⟨t, listed⟩
    | some cached =>
      rw [found] at listed
      obtain ⟨t₀, -, current⟩ := tracks.snapshot c
      exact ⟨t₀, current cached found ▸ listed⟩
  obtain ⟨t₀, member⟩ := computed
  obtain ⟨expiry, found, -⟩ := TypingStore.mem_compute.mp member
  obtain ⟨senders, occupied, -⟩ := Option.bind_eq_some_iff.mp found
  exact ⟨senders, occupied⟩

/-- After a signal in a conversation, and after every tick, the conversation lists each
sender who is typing there, once and no one else; and as long as anyone is typing or is
listed the interval is set, whose next tick takes those off the list who are not typing. -/
theorem listed_iff_typing {h : History} (reached : machine.Reachable h) :
    (∀ e ∈ h.log.head?, ∀ c, Refreshes e c → (h.store.getTyping c e.at_).1.Nodup ∧
      ∀ sender, sender ∈ (h.store.getTyping c e.at_).1 ↔ Typing h.log c sender e.at_) ∧
    ∀ c sender t, now h.log ≤ t →
      Typing h.log c sender t ∨ sender ∈ (h.store.getTyping c t).1 →
        h.store.sweepTimer = true ∧ ∀ t', t ≤ t' →
          ∃ h', machine.step h ⟨t', .sweep⟩ = some h' ∧
            (¬ Typing h.log c sender t' → sender ∉ (h'.store.getTyping c t').1) := by
  have holds := tracks reached
  constructor
  · intro e last c refreshes
    rw [TypingStore.getTyping_of_current (holds.refreshed e last c refreshes)]
    refine ⟨TypingStore.nodup_compute, fun sender => holds.typing_iff ?_⟩
    obtain ⟨before, same⟩ := List.head?_eq_some_iff.mp last
    rw [same]
    exact Nat.le_refl e.at_
  · intro c sender t later shown
    have entry : ∃ senders, h.store.byConv.lookup c = some senders := by
      rcases shown with typing | listed
      · have member := (holds.typing_iff (Nat.le_refl _)).mpr (typing.mono later)
        obtain ⟨expiry, found, -⟩ := TypingStore.mem_compute.mp member
        obtain ⟨senders, occupied, -⟩ := Option.bind_eq_some_iff.mp found
        exact ⟨senders, occupied⟩
      · exact holds.entry_of_listed listed
    obtain ⟨senders, occupied⟩ := entry
    have on : h.store.sweepTimer = true := holds.ticking c senders occupied
    refine ⟨on, fun t' after => ?_⟩
    have in_time : now h.log ≤ t' := Nat.le_trans later after
    refine ⟨⟨h.store.sweep t', ⟨t', .sweep⟩ :: h.log⟩, ?_, fun lapsed listed => lapsed ?_⟩
    · have performed : perform h.store ⟨t', .sweep⟩ = some (h.store.sweep t') := if_pos on
      apply (if_pos in_time).trans
      rw [performed]
      rfl
    · have swept := holds.sweep in_time on
      have current := swept.refreshed ⟨t', .sweep⟩ rfl c trivial
      rw [TypingStore.getTyping_of_current current] at listed
      exact (swept.typing_iff (Nat.le_refl t')).mp listed

/-- In a group where bob began to type at 1000 and alice at 5000, the tick at 7000 leaves
alice. -/
theorem listed_iff_typing_group : ∃ h, machine.Reachable h ∧
    utf16 "alice" ∈ (h.store.getTyping (.user (utf16 "g")) 7000).1 ∧
    utf16 "bob" ∉ (h.store.getTyping (.user (utf16 "g")) 7000).1 := by
  have observed : (machine.run {} [⟨1000, .receiveTyping (.user (utf16 "g")) (utf16 "bob") true⟩,
      ⟨5000, .receiveTyping (.user (utf16 "g")) (utf16 "alice") true⟩, ⟨7000, .sweep⟩]).map
        (·.log) =
      some [⟨7000, .sweep⟩, ⟨5000, .receiveTyping (.user (utf16 "g")) (utf16 "alice") true⟩,
        ⟨1000, .receiveTyping (.user (utf16 "g")) (utf16 "bob") true⟩] := by decide +kernel
  obtain ⟨h, reached, log⟩ := Machine.reachable_of_observed observed rfl
  obtain ⟨-, listed⟩ := (listed_iff_typing reached).1 ⟨7000, .sweep⟩ (by rw [log]; rfl)
    (.user (utf16 "g")) trivial
  refine ⟨h, reached, (listed _).mpr ?_, fun member => ?_⟩
  · rw [log]
    exact ⟨5000, by decide +kernel, by decide⟩
  · obtain ⟨sent, signal, live⟩ := (listed _).mp member
    have first : latest (.user (utf16 "g")) (utf16 "bob") h.log = some (true, 1000) := by
      rw [log]
      decide +kernel
    cases first.symm.trans signal
    exact absurd live (by decide)

end Hwfa.TypingIndicator
