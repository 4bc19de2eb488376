import Hwfa.ClientSessions

/-!
Whether the identity key that is shown for a peer is the one of the session in
use.

The key is recorded when a session is established, from the same bundle; it is
also recorded by `setPeerIdentityKey` and by the backfill of `ensureSession`,
which look at no session, and a session comes into use when a first message is
received, which looks at no recorded key.
-/

namespace Hwfa.ClientSafetyNumbers

open Hwfa.Machines Hwfa.Maps Hwfa.ClientSessions

/-- The key shown for a peer is the one every session in use for it was
established with. -/
def ShownIsUsed (c : Client) : Prop :=
  ∀ p k, c.peerIdentityKey p = some k → ∀ d ∈ c.inUse p, c.pinned.lookup (p, d) = some k

/-- What a fetched bundle must bring when it is only for the identity. -/
def FaithfulReply (c : Client) (task : Send) (reply : Option Bundle) : Prop :=
  match task.stage with
  | .backfilling p known =>
    match reply with
    | some bundle =>
      ∀ k ∈ bundle.identityKeyB64, ∀ d ∈ known :: c.inUse p, c.pinned.lookup (p, d) = some k
    | none => ∀ k ∈ c.peerIdentityKey p, c.pinned.lookup (p, known) = some k
  | _ => True

/-- What a new session must agree with: the sessions other sends are about to
encrypt with. -/
def FaithfulSession (c : Client) (task : Send) : Prop :=
  match task.stage with
  | .established p bundle =>
    ∀ d ∈ committed c.sends p, c.pinned.lookup (p, d) = bundle.identityKeyB64
  | _ => True

/-- A key is recorded for a peer only when it is the one of every session in use
for it, and a session comes into use only when it has the recorded key, if any. -/
def Faithful (c : Client) : Action → Prop
  | .setPeerIdentityKey p k => ∀ d ∈ c.inUse p, c.pinned.lookup (p, d) = some k
  | .fetched id reply => ∀ task ∈ c.sends.lookup id, FaithfulReply c task reply
  | .ensured id => ∀ task ∈ c.sends.lookup id, FaithfulSession c task
  | .learn id =>
    match c.inbound.lookup id with
    | some (.decrypted env) => c.peerDevice.lookup env.senderId = none →
      ∀ k ∈ c.peerIdentityKey env.senderId,
        c.pinned.lookup (env.senderId, env.senderDevice) = some k
    | _ => True
  | _ => True

instance (c : Client) (task : Send) (reply : Option Bundle) :
    Decidable (FaithfulReply c task reply) := by
  unfold FaithfulReply
  split
  · split <;> infer_instance
  · infer_instance

instance (c : Client) (task : Send) : Decidable (FaithfulSession c task) := by
  unfold FaithfulSession
  split <;> infer_instance

instance (c : Client) (a : Action) : Decidable (Faithful c a) := by
  unfold Faithful
  split
  · infer_instance
  · infer_instance
  · infer_instance
  · split <;> infer_instance
  · infer_instance

/-- A session that has just been established has its bundle's identity. -/
def Established (c : Client) : Prop :=
  ∀ id task p bundle, c.sends.lookup id = some task → task.stage = .established p bundle →
    ∃ k, bundle.identityKeyB64 = some k ∧ c.pinned.lookup (p, bundle.deviceId) = some k

variable {c c' : Client} {id : Nat} {task task' : Send} {p : String} {d : Int} {k : String}

/-! ## What a step does to the sessions in use -/

theorem committed_of_insert {sends : FinMap Nat Send}
    (used : d ∈ committed (sends.insert id task) p) :
    task.stage = .encrypting p d ∨ d ∈ committed sends p := by
  obtain ⟨id', other, found, stage⟩ := mem_committed.mp used
  rw [FinMap.lookup_insert_apply] at found
  split at found
  · cases found
    exact .inl stage
  · exact .inr (mem_committed.mpr ⟨id', other, found, stage⟩)

theorem committed_insert {sends : FinMap Nat Send} (found : sends.lookup id = some task)
    (idle : task.stage ≠ .encrypting p d) (used : d ∈ committed sends p) :
    d ∈ committed (sends.insert id task') p := by
  obtain ⟨id', other, found', stage⟩ := mem_committed.mp used
  refine mem_committed.mpr ⟨id', other, ?_, stage⟩
  rw [FinMap.lookup_insert_apply, if_neg]
  · exact found'
  · rintro rfl
    cases found.symm.trans found'
    exact idle stage

theorem mem_inUse : d ∈ c.inUse p ↔ c.peerDevice.lookup p = some d ∨ d ∈ committed c.sends p := by
  simp [Client.inUse]

/-- Pinning a trusted identity changes no pinned one. -/
theorem pin_grows {name : String} {device : Int} {identity : String}
    (trusted : c.trusts name device identity = true) {address : String × Int}
    (pinned : c.pinned.lookup address = some k) :
    (c.pinned.insert (name, device) identity).lookup address = some k := by
  rw [FinMap.lookup_insert_apply]
  split
  · next same =>
    rw [same] at pinned
    simpa [Client.trusts, pinned, eq_comm] using trusted
  · exact pinned

/-- A step that records nothing and brings nothing new into use. -/
theorem ShownIsUsed.frame (shown : ShownIsUsed c) (identity : c'.peerIdentity = c.peerIdentity)
    (used : ∀ p d, d ∈ c'.inUse p → d ∈ c.inUse p)
    (grows : ∀ address k, c.pinned.lookup address = some k → c'.pinned.lookup address = some k) :
    ShownIsUsed c' := by
  intro p k is_shown d inside
  have before : c.peerIdentityKey p = some k := by
    unfold Client.peerIdentityKey at is_shown ⊢
    rwa [← identity]
  exact grows _ _ (shown p k before d (used p d inside))

/-- Sends that follow the ones before use the sessions in use before. -/
theorem inUse_of_follows (follows : Follows c c') (device : c'.peerDevice = c.peerDevice)
    (used : d ∈ c'.inUse p) : d ∈ c.inUse p := by
  rcases mem_inUse.mp used with known | used
  · exact mem_inUse.mpr (.inl (device ▸ known))
  · obtain ⟨id, task, found, stage⟩ := mem_committed.mp used
    rcases follows id task found with before | ⟨-, known⟩
    · exact mem_inUse.mpr (.inr (mem_committed.mpr ⟨id, task, before, stage⟩))
    · exact mem_inUse.mpr (.inl (known p d stage))

/-! ## Established sessions -/

theorem Established.frame (established : Established c)
    (sends : ∀ id task, c'.sends.lookup id = some task → c.sends.lookup id = some task ∨
      ∀ p bundle, task.stage = .established p bundle → ∃ k, bundle.identityKeyB64 = some k ∧
        c'.pinned.lookup (p, bundle.deviceId) = some k)
    (grows : ∀ address k, c.pinned.lookup address = some k → c'.pinned.lookup address = some k) :
    Established c' := by
  intro id task p bundle found stage
  rcases sends id task found with before | own
  · obtain ⟨k, identity, pinned⟩ := established id task p bundle before stage
    exact ⟨k, identity, grows _ _ pinned⟩
  · exact own p bundle stage

/-- A task moves on, to anything but the end of `establishSession`. -/
theorem Established.setSend (established : Established c)
    (sends : c'.sends = c.sends.insert id task) (pinned : c'.pinned = c.pinned)
    (other : ∀ p bundle, task.stage ≠ .established p bundle) : Established c' := by
  refine established.frame ?_ (by rw [pinned]; exact fun _ _ before => before)
  intro id' task' found
  rw [sends, FinMap.lookup_insert_apply] at found
  split at found
  · cases found
    exact .inr fun p bundle stage => absurd stage (other p bundle)
  · exact .inl found

theorem step_established {a : Action} (established : Established c) (moved : c.step a = some c') :
    Established c' := by
  cases step_moves moved with
  | quiet _ _ _ pinned _ follows =>
    refine established.frame ?_ (by rw [pinned]; exact fun _ _ before => before)
    intro id task found
    rcases follows id task found with before | ⟨early, -⟩
    · exact .inl before
    · exact .inr fun p bundle stage => absurd stage (early p bundle)
  | records => exact established
  | fetches _ _ _ early => exact established.setSend rfl rfl early
  | backfills found stage replied =>
    next task p known reply id =>
    simp only [Client.fetched, stage, Option.some.injEq] at replied
    subst replied
    cases reply with
    | none => exact established.setSend rfl rfl (by simp)
    | some bundle => exact established.setSend rfl rfl (by simp)
  | pins _ trusted _ _ pinned _ sends =>
    refine established.frame ?_ (by rw [pinned]; exact fun _ _ before => pin_grows trusted before)
    intro id task found
    rcases sends id task found with before | ⟨bundle, stage, device, identity⟩
    · exact .inl before
    · refine .inr ?_
      intro p bundle' stage'
      rw [stage] at stage'
      cases stage'
      rw [pinned, device]
      exact ⟨_, identity, AList.lookup_insert _⟩
  | ensures found stage ensured =>
    simp only [Client.ensured, stage, Option.some.injEq] at ensured
    subst ensured
    exact established.setSend rfl rfl (by simp)
  | seals => exact established.setSend rfl rfl (by simp)
  | learns => exact established.frame (fun _ _ before => .inl before) fun _ _ before => before

/-! ## Keys shown -/

/-- Recording a key is right exactly when every session in use has it. -/
theorem shown_insert_iff (shown : ShownIsUsed c) (identity : Option String)
    (recorded : c'.peerIdentity = c.peerIdentity.insert p identity)
    (pinned : c'.pinned = c.pinned) (others : ∀ p' d, p' ≠ p → d ∈ c'.inUse p' → d ∈ c.inUse p') :
    ShownIsUsed c' ↔ ∀ k ∈ identity, ∀ d ∈ c'.inUse p, c.pinned.lookup (p, d) = some k := by
  have shows (p' : String) : c'.peerIdentityKey p' =
      if p' = p then identity else c.peerIdentityKey p' := by
    unfold Client.peerIdentityKey
    rw [recorded, FinMap.lookup_insert_apply]
    split <;> rfl
  constructor
  · intro shown' k same d used
    rw [← pinned]
    exact shown' p k (by rw [shows, if_pos rfl]; exact same) d used
  · intro agrees p' k is_shown d used
    rw [shows] at is_shown
    rw [pinned]
    split at is_shown
    · next own =>
      subst own
      exact agrees k is_shown d used
    · next other => exact shown p' k is_shown d (others p' d other used)

/-- Bringing one session into use is right exactly when it has the recorded key. -/
theorem shown_use_iff (shown : ShownIsUsed c) (known : Int)
    (recorded : c'.peerIdentity = c.peerIdentity) (pinned : c'.pinned = c.pinned)
    (uses : ∀ p' d, d ∈ c'.inUse p' ↔ d ∈ c.inUse p' ∨ p' = p ∧ d = known) :
    ShownIsUsed c' ↔ ∀ k ∈ c.peerIdentityKey p, c.pinned.lookup (p, known) = some k := by
  have shows (p' : String) : c'.peerIdentityKey p' = c.peerIdentityKey p' := by
    unfold Client.peerIdentityKey
    rw [recorded]
  constructor
  · intro shown' k same
    rw [← pinned]
    exact shown' p k (by rw [shows]; exact same) known ((uses p known).mpr (.inr ⟨rfl, rfl⟩))
  · intro agrees p' k is_shown d used
    rw [shows] at is_shown
    rw [pinned]
    rcases (uses p' d).mp used with before | ⟨rfl, rfl⟩
    · exact shown p' k is_shown d before
    · exact agrees k is_shown

/-- A task that gets a session known to it uses that one more. -/
theorem committed_advance {sends : FinMap Nat Send} {p' : String} {d' : Int}
    (found : sends.lookup id = some task) (idle : ∀ p d, task.stage ≠ .encrypting p d)
    (stage : task'.stage = .encrypting p d) :
    d' ∈ committed (sends.insert id task') p' ↔ d' ∈ committed sends p' ∨ p' = p ∧ d' = d := by
  constructor
  · intro used
    rcases committed_of_insert used with own | before
    · rw [stage] at own
      cases own
      exact .inr ⟨rfl, rfl⟩
    · exact .inl before
  · rintro (before | ⟨rfl, rfl⟩)
    · exact committed_insert found (idle p' d') before
    · exact mem_committed.mpr ⟨id, task', AList.lookup_insert _, stage⟩

/-- What a backfill leaves agrees exactly when the reply was faithful. -/
theorem backfill_shown {known : Int} {reply : Option Bundle} (shown : ShownIsUsed c)
    (found : c.sends.lookup id = some task) (stage : task.stage = .backfilling p known)
    (replied : c.fetched id task reply = some c') :
    FaithfulReply c task reply ↔ ShownIsUsed c' := by
  simp only [Client.fetched, stage, Option.some.injEq] at replied
  simp only [FaithfulReply, stage]
  have uses (p' : String) (d : Int) : d ∈ committed (c.sends.insert id
      { task with stage := .encrypting p known }) p' ↔
      d ∈ committed c.sends p' ∨ p' = p ∧ d = known :=
    committed_advance found (by simp [stage]) rfl
  subst replied
  cases reply with
  | none =>
    refine Iff.symm (shown_use_iff shown known rfl rfl ?_)
    intro p' d
    simp only [mem_inUse, Client.setSend, uses, or_assoc]
  | some bundle =>
    refine Iff.trans ?_ (Iff.symm (shown_insert_iff shown bundle.identityKeyB64 rfl rfl ?_))
    · simp only [mem_inUse, Client.setSend, uses, List.mem_cons]
      refine forall₂_congr fun k _ => forall_congr' fun d => imp_congr_left ?_
      tauto
    · intro p' d other used
      simp only [mem_inUse, Client.setSend, uses] at used ⊢
      tauto

/-- What the end of `ensureSession` leaves agrees exactly when no other send is
about to use another identity. -/
theorem ensured_shown {bundle : Bundle} (shown : ShownIsUsed c) (established : Established c)
    (found : c.sends.lookup id = some task) (stage : task.stage = .established p bundle)
    (ensured : c.ensured id task = some c') : FaithfulSession c task ↔ ShownIsUsed c' := by
  obtain ⟨k, identity, pinned⟩ := established id task p bundle found stage
  simp only [Client.ensured, stage, Option.some.injEq] at ensured
  simp only [FaithfulSession, stage]
  have uses (p' : String) (d : Int) : d ∈ committed (c.sends.insert id
      { task with stage := .encrypting p bundle.deviceId }) p' ↔
      d ∈ committed c.sends p' ∨ p' = p ∧ d = bundle.deviceId :=
    committed_advance found (by simp [stage]) rfl
  subst ensured
  refine Iff.trans ?_ (Iff.symm (shown_insert_iff shown bundle.identityKeyB64 rfl rfl ?_))
  · simp only [mem_inUse, Client.setSend, uses, FinMap.lookup_insert_apply, if_true,
      Option.some.injEq, identity, Option.mem_def]
    constructor
    · rintro agrees k' rfl d (rfl | before | ⟨-, rfl⟩)
      · exact pinned
      · exact agrees d before
      · exact pinned
    · exact fun agrees d before => agrees k rfl d (.inr (.inl before))
  · intro p' d other used
    simp only [mem_inUse, Client.setSend, uses, FinMap.lookup_insert_apply, if_neg other] at used ⊢
    tauto

theorem learn_shown {env : Envelope} (shown : ShownIsUsed c) :
    (c.peerDevice.lookup env.senderId = none → ∀ k ∈ c.peerIdentityKey env.senderId,
      c.pinned.lookup (env.senderId, env.senderDevice) = some k) ↔
      ShownIsUsed (c.learn id env) := by
  cases known : c.peerDevice.lookup env.senderId with
  | some device =>
    refine iff_of_true (fun unknown => by cases unknown) ?_
    refine shown.frame rfl ?_ fun _ _ pinned => pinned
    intro p d used
    simpa [mem_inUse, Client.learn, known] using used
  | none =>
    refine Iff.trans (forall_prop_of_true rfl) ?_
    refine Iff.symm (shown_use_iff shown env.senderDevice rfl rfl ?_)
    intro p d
    simp only [mem_inUse, Client.learn, known, Option.isSome_none, Bool.false_eq_true, if_false,
      FinMap.lookup_insert_apply]
    by_cases own : p = env.senderId
    · subst own
      simp [known, eq_comm, or_comm]
    · simp [own]

/-- A task that moves on without a session brings none into use. -/
theorem ShownIsUsed.setSend (shown : ShownIsUsed c) (identity : c'.peerIdentity = c.peerIdentity)
    (device : c'.peerDevice = c.peerDevice) (pinned : c'.pinned = c.pinned)
    (sends : c'.sends = c.sends.insert id task) (idle : ∀ p d, task.stage ≠ .encrypting p d) :
    ShownIsUsed c' := by
  refine shown.frame identity ?_ (by rw [pinned]; exact fun _ _ before => before)
  intro p d used
  simp only [mem_inUse, device, sends] at used ⊢
  exact used.imp_right fun used => (committed_of_insert used).resolve_left (idle p d)

/-- The next step keeps the shown keys right exactly when it is faithful. -/
theorem step_shown_iff {a : Action} (shown : ShownIsUsed c) (established : Established c)
    (moved : c.step a = some c') : Faithful c a ↔ ShownIsUsed c' := by
  cases step_moves moved with
  | quiet isPlain identity device pinned _ follows =>
    refine iff_of_true ?_ (shown.frame identity (fun p d => inUse_of_follows follows device)
      (by rw [pinned]; exact fun _ _ before => before))
    cases a with
    | setPeerIdentityKey | fetched | ensured | learn => cases isPlain
    | _ => trivial
  | pins isPlain trusted identity device pinned _ sends =>
    refine iff_of_true ?_ (shown.frame identity ?_
      (by rw [pinned]; exact fun _ _ before => pin_grows trusted before))
    · cases a with
      | setPeerIdentityKey | fetched | ensured | learn => cases isPlain
      | _ => trivial
    · intro p d used
      simp only [mem_inUse, device, mem_committed] at used ⊢
      refine used.imp_right ?_
      rintro ⟨id, task, found, stage⟩
      rcases sends id task found with before | ⟨bundle, other, -⟩
      · exact ⟨id, task, before, stage⟩
      · rw [other] at stage
        cases stage
  | records =>
    next p k =>
    refine Iff.trans ?_ (Iff.symm (shown_insert_iff shown (some k) rfl rfl fun _ _ _ used => used))
    simp only [Option.mem_def, Option.some.injEq, forall_eq']
    exact Iff.rfl
  | fetches found stage early _ =>
    refine iff_of_true ?_ (shown.setSend rfl rfl rfl rfl early)
    simp [Faithful, FaithfulReply, found, stage]
  | backfills found stage replied =>
    next task p known reply id =>
    rw [← backfill_shown shown found stage replied]
    simp [Faithful, found]
  | ensures found stage ensured =>
    next task p bundle id =>
    rw [← ensured_shown shown established found stage ensured]
    simp [Faithful, found]
  | seals => exact iff_of_true trivial (shown.setSend rfl rfl rfl rfl (by simp))
  | learns found =>
    next env id =>
    rw [← learn_shown shown]
    simp [Faithful, found]

/-! ## Runs -/

/-- Whatever key was shown for its recipient, a message was encrypted with a
session of that key. -/
def SealedAsShown (c : Client) : Prop :=
  ∀ message ∈ c.sealed, ∀ k, message.shown = some k → message.identityKeyB64 = k

structure Verified (c : Client) : Prop where
  established : Established c
  shown : ShownIsUsed c
  sealed : SealedAsShown c

theorem step_sealed {a : Action} (verified : Verified c) (moved : c.step a = some c') :
    SealedAsShown c' := by
  have sealed := verified.sealed
  cases step_moves moved with
  | quiet _ _ _ _ same | pins _ _ _ _ _ same => exact fun message member => sealed message (same ▸ member)
  | records => exact sealed
  | fetches => exact sealed
  | backfills found stage replied =>
    next task p known reply id =>
    simp only [Client.fetched, stage, Option.some.injEq] at replied
    subst replied
    cases reply <;> exact sealed
  | ensures found stage ensured =>
    simp only [Client.ensured, stage, Option.some.injEq] at ensured
    subst ensured
    exact sealed
  | seals found stage session =>
    next task p d k id =>
    intro message member k' is_shown
    rcases List.mem_append.mp member with before | own
    · exact sealed message before k' is_shown
    · obtain rfl := List.mem_singleton.mp own
      have used : d ∈ c.inUse p := mem_inUse.mpr (.inr (mem_committed.mpr ⟨id, task, found, stage⟩))
      have pinned := verified.shown p k' is_shown d used
      rw [session] at pinned
      exact Option.some.inj pinned
  | learns => exact sealed

theorem step_verified {a : Action} (verified : Verified c) (faithful : Faithful c a)
    (moved : c.step a = some c') : Verified c' where
  established := step_established verified.established moved
  shown := (step_shown_iff verified.shown verified.established moved).mp faithful
  sealed := step_sealed verified moved

theorem reached_verified (reached : client.Reached Faithful c) : Verified c := by
  refine reached.invariant Verified ?_ fun _ _ _ verified faithful moved =>
    step_verified verified faithful moved
  rintro c ⟨pinned, rfl⟩
  refine ⟨?_, ?_, ?_⟩
  · intro id task p bundle found
    cases found
  · intro p k is_shown
    cases is_shown
  · intro message member
    cases member

/-- **The safety number checks the session in use, in every faithful run.** In
every run whose steps all are faithful, whatever Discovery replies otherwise,
the key shown for a peer is the one that every session used for it was
established with, and every message was encrypted with a session of the key
that was shown; and the next step keeps the shown keys right exactly when it is
faithful. -/
theorem shown_key_is_session_key (reached : client.Reached Faithful c) :
    (ShownIsUsed c ∧ SealedAsShown c) ∧
      ∀ a c', c.step a = some c' → (Faithful c a ↔ ShownIsUsed c') := by
  have verified := reached_verified reached
  refine ⟨⟨verified.shown, verified.sealed⟩, ?_⟩
  exact fun a c' moved => step_shown_iff verified.shown verified.established moved

/-- A peer whose session has one identity writes first; Discovery has another
one, or the same, for the reply. -/
def peerWritesFirst (session fetched : String) : List Action :=
  [ .resume "alice",
    .deliver ⟨"bob", 1, .preKey session⟩,
    .decrypt 0 true,
    .learn 0,
    .sendText "bob" 0,
    .listed 1 none 1,
    .loop 1,
    .fetched 1 (some ⟨1, some fetched⟩),
    .encrypt 1 true ]

/-- What is shown for the peer, and what was encrypted to it. -/
structure Observed where
  shown : Option String
  sealed : List Sealed
  deriving DecidableEq

def observe (c : Client) : Observed := ⟨c.peerIdentityKey "bob", c.sealed⟩

theorem honest_backfill_is_faithful : ∃ c, client.Reached Faithful c ∧
    observe c = ⟨some "bobKey", [⟨"bob", 1, "bobKey", some "bobKey"⟩]⟩ ∧
    (ShownIsUsed c ∧ SealedAsShown c) ∧
      ∀ a c', c.step a = some c' → (Faithful c a ↔ ShownIsUsed c') := by
  have observed : (client.checkedRun Faithful {} (peerWritesFirst "bobKey" "bobKey")).map observe =
      some ⟨some "bobKey", [⟨"bob", 1, "bobKey", some "bobKey"⟩]⟩ := by
    decide +kernel
  obtain ⟨c, ran, seen⟩ := Option.map_eq_some_iff.mp observed
  have reached : client.Reached Faithful c := .checkedRun (.start ⟨∅, rfl⟩) _ ran
  exact ⟨c, reached, seen, shown_key_is_session_key reached⟩

/-- The first message came from whoever holds `malloryKey`, and Discovery serves
the key the user expects. -/
theorem intercepted_session_shows_another_key : ∃ c, client.Reachable c ∧
    observe c = ⟨some "bobKey", [⟨"bob", 1, "malloryKey", some "bobKey"⟩]⟩ ∧ ¬ SealedAsShown c := by
  have observed : (client.run {} (peerWritesFirst "malloryKey" "bobKey")).map observe =
      some ⟨some "bobKey", [⟨"bob", 1, "malloryKey", some "bobKey"⟩]⟩ := by
    decide +kernel
  obtain ⟨c, reachable, seen⟩ := Machine.reachable_of_observed observed ⟨∅, rfl⟩
  refine ⟨c, reachable, seen, ?_⟩
  intro sealed
  obtain ⟨-, messages⟩ := Observed.mk.inj seen
  have same := sealed _ (messages ▸ List.mem_cons_self) "bobKey" rfl
  exact absurd same (by decide)

end Hwfa.ClientSafetyNumbers
