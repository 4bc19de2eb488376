import Hwfa.ClientSafetyNumbers

/-!
The peers a client has sessions with, against the key stores of its provider,
when the identity changes: `onboard`, `requestOtp`, `confirmOtp`,
`linkWithCode`, `deleteAccount` of `packages/client/src/client.ts`, and
`generateRegistration` of `packages/client/src/node/provider.ts`.

Generating a registration replaces the stores.  A call of the provider works on
the stores it found when it was made, so one that is still running then goes on
with stores that nothing else uses any more: they are kept in `dropped`, each
registration by its number.  A provider that never had stores rejects every
call; its stores are empty ones whose answers all are rejections.

A call that gives a user id also opens the relay; where opening fails, the
relay is closed again.
-/

namespace Hwfa.ClientIdentities

open Hwfa.Machines Hwfa.Maps Hwfa.ClientSessions

/-- The stores of one registration: the sessions, by address. -/
abbrev Stores := FinMap (String × Int) String

/-- A call that waits for Discovery. -/
inductive Onboarding where
  | onboard
  | requestOtp
  | linkWithCode
  | submitOtp
  deriving DecidableEq

/-- Which registration's stores the latest provider call of a task works on. -/
structure Calls where
  sends : FinMap Nat Nat := ∅
  inbound : FinMap Nat Nat := ∅

structure Device where
  client : Client
  pendingUserId : Option String := none
  onboarding : FinMap Nat Onboarding := ∅
  requests : Nat := 0
  dropped : List Stores := []
  calls : Calls := {}

inductive Action where
  | session (a : ClientSessions.Action)
  /-- the call of `encrypt`, a turn after `ensureSession` has returned -/
  | encrypt (id : Nat)
  /-- `onboard`, `requestOtp` or `linkWithCode` up to its request -/
  | generateRegistration (call : Onboarding)
  /-- `confirmOtp` up to its request -/
  | submitOtp
  /-- Discovery answers with a user id, or rejects -/
  | answered (id : Nat) (reply : Option String)
  /-- a socket that the client has let go of still delivers -/
  | lateDeliver (env : Envelope)
  /-- the rest of `deleteAccount` -/
  | deleteAccount

/-- The number of the current registration. -/
def Device.registration (d : Device) : Nat := d.dropped.length

/-- The registration whose stores answer a session step, where it is a provider's. -/
def Calls.answering (calls : Calls) : ClientSessions.Action → Option Nat
  | .establishSession id _ => calls.sends.lookup id
  | .encrypt id _ => calls.sends.lookup id
  | .decrypt id _ => calls.inbound.lookup id
  | _ => none

/-- The provider calls that a session step makes. -/
def Calls.made (calls : Calls) (registration : Nat) (c : Client) : ClientSessions.Action → Calls
  | .fetched id _ => { calls with sends := calls.sends.insert id registration }
  | .loop id => { calls with sends := calls.sends.insert id registration }
  | .ensured id => { calls with sends := calls.sends.insert id registration }
  | .deliver _ => { calls with inbound := calls.inbound.insert c.tasks registration }
  | _ => calls

/-- The client, with these stores in its provider. -/
def onStores (c : Client) (stores : Stores) : Client := { c with pinned := stores }

/-- A step of the sessions, answered from the stores its call was made on. -/
def Device.session (d : Device) (a : ClientSessions.Action) : Option Device :=
  let calls := d.calls.made d.registration d.client a
  match (d.calls.answering a).bind fun n => (d.dropped[n]?).map fun stores => (n, stores) with
  | some (n, stores) =>
    ((onStores d.client stores).step a).map fun c =>
      { d with
        client := onStores c d.client.pinned
        dropped := d.dropped.set n c.pinned
        calls := calls }
  | none => (d.client.step a).map fun c => { d with client := c, calls := calls }

/-- The new stores hold no session. -/
def Device.generateRegistration (d : Device) (call : Onboarding) : Device :=
  { d with
    client := onStores d.client ∅
    dropped := d.dropped ++ [d.client.pinned]
    onboarding := d.onboarding.insert d.requests call
    requests := d.requests + 1 }

/-- The user id is known, and the relay opened. -/
def Device.connect (d : Device) (userId : Option String) : Device :=
  { d with client := { d.client with
      userId := userId
      relay := d.client.relay || userId.isSome } }

/-- What a call goes on with. -/
def Device.answered (d : Device) (call : Onboarding) (userId : String) : Device :=
  match call with
  | .onboard => d.connect (some userId)
  | .requestOtp => { d with pendingUserId := some userId }
  | .linkWithCode => d.connect (some userId)
  -- the pending user id is read again, after the request
  | .submitOtp => { d.connect d.pendingUserId with pendingUserId := none }

/-- The handlers of a socket outlive the client's hold on it. -/
def Device.lateDeliver (d : Device) (env : Envelope) : Device :=
  { d with
    client := d.client.deliver env
    calls := d.calls.made d.registration d.client (.deliver env) }

def Device.step (d : Device) : Action → Option Device
  | .session a => d.session a
  | .encrypt id =>
    (d.client.sends.lookup id).bind fun task =>
      match task.stage with
      | .encrypting .. =>
        some { d with calls := { d.calls with sends := d.calls.sends.insert id d.registration } }
      | _ => none
  | .generateRegistration call =>
    if call = .submitOtp then none else some (d.generateRegistration call)
  | .submitOtp =>
    if d.pendingUserId.isSome then
      some { d with
        onboarding := d.onboarding.insert d.requests .submitOtp
        requests := d.requests + 1 }
    else none
  | .answered id reply =>
    (d.onboarding.lookup id).map fun call =>
      let d := { d with onboarding := d.onboarding.erase id }
      match reply with
      | some userId => d.answered call userId
      | none => d
  | .lateDeliver env => some (d.lateDeliver env)
  | .deleteAccount => some { d with client := { d.client with userId := none, relay := false } }

/-- A client that knows no peer yet, whose provider may hold sessions of earlier
runs. -/
def device : Machine Device Action where
  start d := ∃ pinned, d = { client := { pinned := pinned } }
  step := Device.step

/-- The current stores have the session of every peer device that is known. -/
def SessionsHeld (d : Device) : Prop :=
  ∀ p k, d.client.peerDevice.lookup p = some k → (d.client.pinned.lookup (p, k)).isSome

/-- What a send or a delivery may record: a session of a call that was made on
the current stores, or one that these have as well. -/
def Recordable (d : Device) (registration : Option Nat) (p : String) (k : Int) : Prop :=
  registration = some d.registration ∨ (d.client.pinned.lookup (p, k)).isSome

instance (d : Device) (registration : Option Nat) (p : String) (k : Int) :
    Decidable (Recordable d registration p k) := by
  unfold Recordable
  infer_instance

/-- What a send records. -/
def RecordableSend (d : Device) (id : Nat) : Option Send → Prop
  | some ⟨_, _, .established p bundle⟩ =>
    Recordable d (d.calls.sends.lookup id) p bundle.deviceId
  | _ => True

/-- What a delivery records, unless the peer is known. -/
def RecordableInbound (d : Device) (id : Nat) : Option Inbound → Prop
  | some (.decrypted env) => d.client.peerDevice.lookup env.senderId = none →
    Recordable d (d.calls.inbound.lookup id) env.senderId env.senderDevice
  | _ => True

/-- The stores are replaced only while no peer is known, and a peer is recorded
only with a session of the current ones. -/
def Matching (d : Device) : Action → Prop
  | .generateRegistration _ => d.client.peerDevice.keys = []
  | .session (.ensured id) => RecordableSend d id (d.client.sends.lookup id)
  | .session (.learn id) => RecordableInbound d id (d.client.inbound.lookup id)
  | _ => True

instance (d : Device) (id : Nat) (task : Option Send) : Decidable (RecordableSend d id task) := by
  unfold RecordableSend
  split <;> infer_instance

instance (d : Device) (id : Nat) (task : Option Inbound) :
    Decidable (RecordableInbound d id task) := by
  unfold RecordableInbound
  split <;> infer_instance

instance (d : Device) (a : Action) : Decidable (Matching d a) := by
  unfold Matching
  split <;> infer_instance

/-! ## What the functions of the sessions change -/

variable {c c' : Client} {d d' : Device} {a : ClientSessions.Action} {id : Nat} {task : Send}
  {p : String} {k : Int} {env : Envelope}

/-- A send has a session that is still to be recorded. -/
def isEstablished (task : Send) : Bool := task.stage matches .established ..

theorem isEstablished_of {bundle : Bundle} (stage : task.stage = .established p bundle) :
    isEstablished task = true := by
  simp [isEstablished, stage]

/-- A send has moved on, and no delivery has. -/
structure Advances (c c' : Client) (id : Nat) (task : Send) : Prop where
  sends : c'.sends = c.sends.insert id task
  inbound : c'.inbound = c.inbound

theorem loop_inbound (c : Client) (id : Nat) (task : Send) :
    (c.loop id task).inbound = c.inbound := by
  unfold Client.loop
  split
  · rfl
  · split
    · rfl
    · split
      · rfl
      · split <;> rfl

theorem loop_sends (stage : task.stage = .next) :
    (c.loop id task).sends = c.sends.erase id ∨
      ∃ t, (c.loop id task).sends = c.sends.insert id t ∧ isEstablished t = false := by
  unfold Client.loop
  split
  · exact .inl rfl
  · right
    split
    · exact ⟨_, rfl, by simp [isEstablished, stage]⟩
    · split
      · exact ⟨_, rfl, rfl⟩
      · split
        · exact ⟨_, rfl, rfl⟩
        · exact ⟨_, rfl, rfl⟩

theorem fetched_advances {reply : Option Bundle} (replied : c.fetched id task reply = some c') :
    c'.peerDevice = c.peerDevice ∧ c'.pinned = c.pinned ∧
      ∃ t, Advances c c' id t ∧ isEstablished t = false := by
  unfold Client.fetched at replied
  split at replied
  · cases reply with
    | none | some =>
      cases replied
      exact ⟨rfl, rfl, _, ⟨rfl, rfl⟩, rfl⟩
  · cases reply with
    | none | some =>
      cases replied
      exact ⟨rfl, rfl, _, ⟨rfl, rfl⟩, rfl⟩
  · cases replied

theorem establishSession_advances {accepted : Bool}
    (answered : c.establishSession id task accepted = some c') :
    c'.peerDevice = c.peerDevice ∧ ∃ t, Advances c c' id t := by
  unfold Client.establishSession at answered
  split at answered
  · split at answered
    · split at answered
      · cases answered
        exact ⟨rfl, _, ⟨rfl, rfl⟩⟩
      · cases answered
        exact ⟨rfl, _, ⟨rfl, rfl⟩⟩
    · cases answered
      exact ⟨rfl, _, ⟨rfl, rfl⟩⟩
  · cases answered

theorem ensured_advances (ensured : c.ensured id task = some c') :
    c'.pinned = c.pinned ∧ ∃ t, Advances c c' id t ∧ isEstablished t = false := by
  unfold Client.ensured at ensured
  split at ensured
  · cases ensured
    exact ⟨rfl, _, ⟨rfl, rfl⟩, rfl⟩
  · cases ensured

theorem encrypt_advances {accepted : Bool} (answered : c.encrypt id task accepted = some c') :
    c'.peerDevice = c.peerDevice ∧ ∃ t, Advances c c' id t := by
  unfold Client.encrypt at answered
  split at answered
  · simp only at answered
    split at answered
    · split at answered
      · cases answered
        exact ⟨rfl, _, ⟨rfl, rfl⟩⟩
      · cases answered
        exact ⟨rfl, _, ⟨rfl, rfl⟩⟩
    · cases answered
      exact ⟨rfl, _, ⟨rfl, rfl⟩⟩
  · cases answered

theorem decrypt_frame (c : Client) (id : Nat) (env : Envelope) (accepted : Bool) :
    (c.decrypt id env accepted).peerDevice = c.peerDevice ∧
      (c.decrypt id env accepted).sends = c.sends := by
  unfold Client.decrypt
  split
  · split
    · exact ⟨rfl, rfl⟩
    · exact ⟨rfl, rfl⟩
  · split
    · exact ⟨rfl, rfl⟩
    · exact ⟨rfl, rfl⟩

theorem lookup_decrypt_ne {own : Nat} {accepted : Bool} (differs : id ≠ own) :
    (c.decrypt own env accepted).inbound.lookup id = c.inbound.lookup id := by
  unfold Client.decrypt
  split
  · split
    · exact AList.lookup_insert_ne differs
    · exact AList.lookup_erase_ne differs
  · split
    · exact AList.lookup_insert_ne differs
    · exact AList.lookup_erase_ne differs

/-! ## What a session step does -/

/-- Sessions are kept, where the provider goes on with the same stores. -/
theorem step_grows {address : String × Int} (moved : c.step a = some c')
    (held : (c.pinned.lookup address).isSome) : (c'.pinned.lookup address).isSome := by
  obtain ⟨identity, found⟩ := Option.isSome_iff_exists.mp held
  cases step_moves moved with
  | quiet _ _ _ pinned => rwa [pinned]
  | pins _ trusted _ _ pinned =>
    rw [pinned, ClientSafetyNumbers.pin_grows trusted found]
    rfl
  | backfills _ _ replied =>
    rw [(fetched_advances replied).2.1]
    exact held
  | ensures _ _ ensured =>
    rw [(ensured_advances ensured).1]
    exact held
  | _ => exact held

/-- An answer from the stores of one registration concerns no peer's device, and
no task whose call was made on another's. -/
structure AnswersFor (c c' : Client) (calls : Calls) (n : Nat) : Prop where
  device : c'.peerDevice = c.peerDevice
  sends : ∀ id, calls.sends.lookup id ≠ some n → c'.sends.lookup id = c.sends.lookup id
  inbound : ∀ id, calls.inbound.lookup id ≠ some n → c'.inbound.lookup id = c.inbound.lookup id

variable {calls : Calls} {n : Nat}

theorem answersFor_send (answered : calls.sends.lookup id = some n)
    (device : c'.peerDevice = c.peerDevice) (advances : Advances c c' id task) :
    AnswersFor c c' calls n := by
  refine ⟨device, ?_, ?_⟩
  · intro other apart
    have differs : other ≠ id := by
      rintro rfl
      exact apart answered
    rw [advances.sends, AList.lookup_insert_ne differs]
  · intro other _
    rw [advances.inbound]

theorem step_answersFor (answered : calls.answering a = some n) (moved : c.step a = some c') :
    AnswersFor c c' calls n := by
  cases a with
  | establishSession id accepted =>
    obtain ⟨task, -, moved⟩ := Option.bind_eq_some_iff.mp moved
    obtain ⟨device, t, advances⟩ := establishSession_advances moved
    exact answersFor_send answered device advances
  | encrypt id accepted =>
    obtain ⟨task, -, moved⟩ := Option.bind_eq_some_iff.mp moved
    obtain ⟨device, t, advances⟩ := encrypt_advances moved
    exact answersFor_send answered device advances
  | decrypt id accepted =>
    simp only [Client.step] at moved
    split at moved
    · next env found =>
      cases moved
      obtain ⟨device, sends⟩ := decrypt_frame c id env accepted
      refine ⟨device, fun other _ => by rw [sends], ?_⟩
      intro other elsewhere
      apply lookup_decrypt_ne
      rintro rfl
      exact elsewhere answered
    · cases moved
  | _ => cases answered

/-- The loop, a fetched bundle and the end of `ensureSession` leave no session to
be recorded. -/
theorem early_of_call (call : a = .loop id ∨ (∃ reply, a = .fetched id reply) ∨ a = .ensured id)
    (moved : c.step a = some c') (found : c'.sends.lookup id = some task) :
    isEstablished task = false := by
  have own {t : Send} (sends : c'.sends = c.sends.insert id t)
      (early : isEstablished t = false) : isEstablished task = false := by
    rw [sends, AList.lookup_insert] at found
    cases found
    exact early
  rcases call with rfl | ⟨reply, rfl⟩ | rfl
  · obtain ⟨t, -, moved⟩ := Option.bind_eq_some_iff.mp moved
    split at moved
    · next stage =>
      cases moved
      rcases loop_sends stage with erased | ⟨t', sends, early⟩
      · rw [erased, AList.lookup_erase] at found
        cases found
      · exact own sends early
    · cases moved
  · obtain ⟨t, -, moved⟩ := Option.bind_eq_some_iff.mp moved
    obtain ⟨-, -, t', advances, early⟩ := fetched_advances moved
    exact own advances.sends early
  · obtain ⟨t, -, moved⟩ := Option.bind_eq_some_iff.mp moved
    obtain ⟨-, t', advances, early⟩ := ensured_advances moved
    exact own advances.sends early

/-- The steps of a delivery. -/
def delivers : ClientSessions.Action → Bool
  | .deliver .. => true
  | .decrypt .. => true
  | .learn .. => true
  | _ => false

theorem inbound_of_step (moved : c.step a = some c') (other : delivers a = false) :
    c'.inbound = c.inbound := by
  cases a with
  | resume | close | setPeerIdentityKey =>
    cases moved
    rfl
  | sendText peerUserId now =>
    cases moved
    unfold Client.sendText
    split <;> rfl
  | listed id reply now =>
    obtain ⟨t, -, moved⟩ := Option.bind_eq_some_iff.mp moved
    split at moved
    · cases moved
      rfl
    · cases moved
  | loop id =>
    obtain ⟨t, -, moved⟩ := Option.bind_eq_some_iff.mp moved
    split at moved
    · cases moved
      exact loop_inbound c id t
    · cases moved
  | fetched id reply =>
    obtain ⟨t, -, moved⟩ := Option.bind_eq_some_iff.mp moved
    obtain ⟨-, -, _, advances, -⟩ := fetched_advances moved
    exact advances.inbound
  | establishSession id accepted =>
    obtain ⟨t, -, moved⟩ := Option.bind_eq_some_iff.mp moved
    obtain ⟨-, _, advances⟩ := establishSession_advances moved
    exact advances.inbound
  | ensured id =>
    obtain ⟨t, -, moved⟩ := Option.bind_eq_some_iff.mp moved
    obtain ⟨-, _, advances, -⟩ := ensured_advances moved
    exact advances.inbound
  | encrypt id accepted =>
    obtain ⟨t, -, moved⟩ := Option.bind_eq_some_iff.mp moved
    obtain ⟨-, _, advances⟩ := encrypt_advances moved
    exact advances.inbound
  | deliver | decrypt | learn => cases other

/-- What was decrypted leaves its session. -/
theorem pinned_of_decrypt {message : Envelope} {accepted : Bool}
    (found : (c.decrypt id message accepted).inbound.lookup id = some (.decrypted env)) :
    ((c.decrypt id message accepted).pinned.lookup (env.senderId, env.senderDevice)).isSome := by
  unfold Client.decrypt at found ⊢
  split
  · next k kind =>
    by_cases trusted : (accepted && c.trusts message.senderId message.senderDevice k) = true
    · simp only [kind, trusted, if_true, Client.pin, AList.lookup_insert] at found ⊢
      cases found
      rw [AList.lookup_insert]
      rfl
    · simp [kind, trusted] at found
  · next kind =>
    by_cases known :
        (accepted && (c.pinned.lookup (message.senderId, message.senderDevice)).isSome) = true
    · simp only [kind, known, if_true, AList.lookup_insert] at found ⊢
      cases found
      exact (Bool.and_eq_true_iff.mp known).2
    · simp [kind, known] at found

/-- A delivery that is decrypted was so before, or has just left its session. -/
theorem decrypted_of_step (moved : c.step a = some c')
    (found : c'.inbound.lookup id = some (.decrypted env)) :
    (c.inbound.lookup id = some (.decrypted env) ∧
      ∀ calls n, (Calls.made calls n c a).inbound.lookup id = calls.inbound.lookup id) ∨
    (c'.pinned.lookup (env.senderId, env.senderDevice)).isSome := by
  cases a with
  | deliver message =>
    simp only [Client.step, Option.ite_none_right_eq_some, Option.some.injEq] at moved
    obtain ⟨-, rfl⟩ := moved
    have elsewhere : id ≠ c.tasks := by
      rintro rfl
      simp [Client.deliver] at found
    refine .inl ⟨?_, fun calls n => AList.lookup_insert_ne elsewhere⟩
    rwa [Client.deliver, AList.lookup_insert_ne elsewhere] at found
  | decrypt own accepted =>
    simp only [Client.step] at moved
    split at moved
    · next message waiting =>
      cases moved
      by_cases same : id = own
      · subst same
        exact .inr (pinned_of_decrypt found)
      · rw [lookup_decrypt_ne same] at found
        exact .inl ⟨found, fun _ _ => rfl⟩
    · cases moved
  | learn own =>
    simp only [Client.step] at moved
    split at moved
    · cases moved
      simp only [Client.learn, FinMap.lookup_erase_apply] at found
      split at found
      · cases found
      · exact .inl ⟨found, fun _ _ => rfl⟩
    · cases moved
  | _ =>
    rw [inbound_of_step moved rfl] at found
    exact .inl ⟨found, fun _ _ => rfl⟩

/-- A session that is to be recorded was so before, or has just been established. -/
theorem established_of_step {bundle : Bundle} (moved : c.step a = some c')
    (found : c'.sends.lookup id = some task) (stage : task.stage = .established p bundle) :
    (c.sends.lookup id = some task ∧
      ∀ calls n, (Calls.made calls n c a).sends.lookup id = calls.sends.lookup id) ∨
    (c'.pinned.lookup (p, bundle.deviceId)).isSome := by
  have inserted {own : Nat} {t : Send} (sends : c'.sends = c.sends.insert own t)
      (early : isEstablished t = false) : c.sends.lookup id = some task := by
    rw [sends, FinMap.lookup_insert_apply] at found
    split at found
    · cases found
      rw [isEstablished_of stage] at early
      cases early
    · exact found
  have before : c.sends.lookup id = some task ∨
      (c'.pinned.lookup (p, bundle.deviceId)).isSome := by
    cases step_moves moved with
    | quiet _ _ _ _ _ follows =>
      rcases follows id task found with before | ⟨early, -⟩
      · exact .inl before
      · exact absurd stage (early p bundle)
    | pins _ _ _ _ pinned _ sends =>
      rcases sends id task found with before | ⟨own, stage', device, -⟩
      · exact .inl before
      · rw [stage] at stage'
        cases stage'
        right
        rw [pinned, device, AList.lookup_insert]
        rfl
    | @fetches _ _ stage' _ _ _ _ _ early =>
      refine .inl (inserted rfl ?_)
      cases stage' with
      | established p bundle => exact absurd rfl (early p bundle)
      | _ => rfl
    | backfills _ _ replied =>
      obtain ⟨-, -, t, advances, early⟩ := fetched_advances replied
      exact .inl (inserted advances.sends early)
    | ensures _ _ ensured =>
      obtain ⟨-, t, advances, early⟩ := ensured_advances ensured
      exact .inl (inserted advances.sends early)
    | seals => exact .inl (inserted rfl rfl)
    | records | learns => exact .inl found
  rcases before with before | pinned
  · left
    refine ⟨before, ?_⟩
    intro calls n
    have elsewhere {own : Nat}
        (call : a = .loop own ∨ (∃ reply, a = .fetched own reply) ∨ a = .ensured own) :
        id ≠ own := by
      rintro rfl
      have early := early_of_call call moved found
      rw [isEstablished_of stage] at early
      cases early
    cases a with
    | loop own => exact AList.lookup_insert_ne (elsewhere (.inl rfl))
    | fetched own reply => exact AList.lookup_insert_ne (elsewhere (.inr (.inl ⟨reply, rfl⟩)))
    | ensured own => exact AList.lookup_insert_ne (elsewhere (.inr (.inr rfl)))
    | _ => rfl
  · exact .inr pinned

/-! ## What holds in every run -/

/-- Every call was made on the stores of some registration, and where these are
the current ones, they have the session that it left. -/
structure CallsMatch (d : Device) : Prop where
  sends : ∀ id n, d.calls.sends.lookup id = some n → n ≤ d.registration
  inbound : ∀ id n, d.calls.inbound.lookup id = some n → n ≤ d.registration
  established : ∀ id task p bundle, d.client.sends.lookup id = some task →
    task.stage = .established p bundle → d.calls.sends.lookup id = some d.registration →
      (d.client.pinned.lookup (p, bundle.deviceId)).isSome
  decrypted : ∀ id env, d.client.inbound.lookup id = some (.decrypted env) →
    d.calls.inbound.lookup id = some d.registration →
      (d.client.pinned.lookup (env.senderId, env.senderDevice)).isSome

/-- The two ways a session step is answered. -/
theorem session_cases (moved : d.session a = some d') :
    (∃ c, d.client.step a = some c ∧
      d' = { d with client := c, calls := d.calls.made d.registration d.client a }) ∨
    ∃ n stores c, d.calls.answering a = some n ∧ n < d.registration ∧
      (onStores d.client stores).step a = some c ∧
      d' = { d with
        client := onStores c d.client.pinned
        dropped := d.dropped.set n c.pinned
        calls := d.calls.made d.registration d.client a } := by
  unfold Device.session at moved
  simp only at moved
  split at moved
  · next n stores answered =>
    obtain ⟨c, stepped, rfl⟩ := Option.map_eq_some_iff.mp moved
    obtain ⟨m, answering, found⟩ := Option.bind_eq_some_iff.mp answered
    obtain ⟨_, found, same⟩ := Option.map_eq_some_iff.mp found
    cases same
    refine .inr ⟨n, stores, c, answering, ?_, stepped, rfl⟩
    exact (List.getElem?_eq_some_iff.mp found).1
  · obtain ⟨c, stepped, rfl⟩ := Option.map_eq_some_iff.mp moved
    exact .inl ⟨c, stepped, rfl⟩

theorem made_le {calls : Calls} {n : Nat} (c : Client) (a : ClientSessions.Action)
    (sends : ∀ id m, calls.sends.lookup id = some m → m ≤ n)
    (inbound : ∀ id m, calls.inbound.lookup id = some m → m ≤ n) :
    (∀ id m, (calls.made n c a).sends.lookup id = some m → m ≤ n) ∧
      ∀ id m, (calls.made n c a).inbound.lookup id = some m → m ≤ n := by
  have inserted {calls : FinMap Nat Nat} {own : Nat} (before : ∀ id m, calls.lookup id = some m → m ≤ n)
      (id m : Nat) (found : (calls.insert own n).lookup id = some m) : m ≤ n := by
    rw [FinMap.lookup_insert_apply] at found
    split at found
    · cases found
      exact le_rfl
    · exact before id m found
  cases a with
  | fetched | loop | ensured => exact ⟨inserted sends, inbound⟩
  | deliver => exact ⟨sends, inserted inbound⟩
  | _ => exact ⟨sends, inbound⟩

theorem made_of_answering {calls : Calls} {n m : Nat} (c : Client)
    (answered : calls.answering a = some n) : calls.made m c a = calls := by
  cases a with
  | establishSession | encrypt | decrypt => rfl
  | _ => cases answered

/-- A session step leaves the calls in order. -/
theorem CallsMatch.session (calls : CallsMatch d) (moved : d.session a = some d') :
    CallsMatch d' := by
  rcases session_cases moved with ⟨c, stepped, rfl⟩ | ⟨n, stores, c, answered, old, stepped, rfl⟩
  · obtain ⟨sends, inbound⟩ := made_le d.client a calls.sends calls.inbound
    refine ⟨sends, inbound, ?_, ?_⟩
    · intro id task p bundle found stage current
      rcases established_of_step stepped found stage with ⟨before, same⟩ | pinned
      · exact step_grows stepped (calls.established id task p bundle before stage
          ((same d.calls d.registration).symm.trans current))
      · exact pinned
    · intro id env found current
      rcases decrypted_of_step stepped found with ⟨before, same⟩ | pinned
      · exact step_grows stepped (calls.decrypted id env before
          ((same d.calls d.registration).symm.trans current))
      · exact pinned
  · have apart {reads : Option Nat} (current : reads = some d.registration) : reads ≠ some n := by
      intro same
      have := Option.some.inj (current.symm.trans same)
      omega
    have same := step_answersFor answered stepped
    rw [made_of_answering d.client answered]
    have registration (stores : Stores) : (d.dropped.set n stores).length = d.registration :=
      List.length_set
    refine ⟨?_, ?_, ?_, ?_⟩
    · intro id m found
      rw [Device.registration, registration]
      exact calls.sends id m found
    · intro id m found
      rw [Device.registration, registration]
      exact calls.inbound id m found
    · intro id task p bundle found stage current
      rw [Device.registration, registration] at current
      exact calls.established id task p bundle ((same.sends id (apart current)).symm.trans found)
        stage current
    · intro id env found current
      rw [Device.registration, registration] at current
      exact calls.decrypted id env ((same.inbound id (apart current)).symm.trans found) current

theorem CallsMatch.frame (calls : CallsMatch d) (same : d'.calls = d.calls)
    (dropped : d'.dropped = d.dropped) (sends : d'.client.sends = d.client.sends)
    (inbound : d'.client.inbound = d.client.inbound)
    (pinned : d'.client.pinned = d.client.pinned) : CallsMatch d' := by
  have number : d'.registration = d.registration := by rw [Device.registration, dropped]; rfl
  refine ⟨?_, ?_, ?_, ?_⟩
  · rw [same, number]
    exact calls.sends
  · rw [same, number]
    exact calls.inbound
  · rw [same, number, sends, pinned]
    exact calls.established
  · rw [same, number, inbound, pinned]
    exact calls.decrypted

/-- With new stores, no call is on the current ones. -/
theorem CallsMatch.generateRegistration (calls : CallsMatch d) (call : Onboarding) :
    CallsMatch (d.generateRegistration call) := by
  have number : (d.generateRegistration call).registration = d.registration + 1 := by
    simp [Device.registration, Device.generateRegistration]
  refine ⟨?_, ?_, ?_, ?_⟩
  · intro id n found
    have := calls.sends id n found
    omega
  · intro id n found
    have := calls.inbound id n found
    omega
  · intro id task p bundle _ _ current
    have := calls.sends id _ current
    omega
  · intro id env _ current
    have := calls.inbound id _ current
    omega

theorem CallsMatch.encrypt (calls : CallsMatch d) (found : d.client.sends.lookup id = some task)
    (stage : task.stage = .encrypting p k) :
    CallsMatch { d with calls :=
      { d.calls with sends := d.calls.sends.insert id d.registration } } := by
  refine ⟨?_, calls.inbound, ?_, calls.decrypted⟩
  · intro other n found
    rw [FinMap.lookup_insert_apply] at found
    split at found
    · cases found
      exact le_rfl
    · exact calls.sends other n found
  · intro other task' p' bundle found' stage' current
    rw [FinMap.lookup_insert_apply] at current
    split at current
    · next own =>
      subst own
      cases found.symm.trans found'
      rw [stage] at stage'
      cases stage'
    · exact calls.established other task' p' bundle found' stage' current

/-- An open relay would deliver the same. -/
theorem CallsMatch.lateDeliver (calls : CallsMatch d) (env : Envelope) :
    CallsMatch (d.lateDeliver env) := by
  have opened : CallsMatch { d with client := { d.client with relay := true } } :=
    calls.frame rfl rfl rfl rfl rfl
  have delivered := opened.session (a := .deliver env) rfl
  exact delivered.frame rfl rfl rfl rfl rfl

theorem step_callsMatch {a : Action} (calls : CallsMatch d) (moved : d.step a = some d') :
    CallsMatch d' := by
  cases a with
  | session a => exact calls.session moved
  | encrypt id =>
    obtain ⟨task, found, moved⟩ := Option.bind_eq_some_iff.mp moved
    split at moved
    · next p k stage =>
      cases moved
      exact calls.encrypt found stage
    · cases moved
  | generateRegistration call =>
    simp only [Device.step, Option.ite_none_left_eq_some, Option.some.injEq] at moved
    obtain ⟨-, rfl⟩ := moved
    exact calls.generateRegistration call
  | submitOtp =>
    simp only [Device.step, Option.ite_none_right_eq_some, Option.some.injEq] at moved
    obtain ⟨-, rfl⟩ := moved
    exact calls.frame rfl rfl rfl rfl rfl
  | answered id reply =>
    obtain ⟨call, -, rfl⟩ := Option.map_eq_some_iff.mp moved
    cases reply with
    | none => exact calls.frame rfl rfl rfl rfl rfl
    | some userId =>
      cases call with
      | onboard | requestOtp | linkWithCode | submitOtp => exact calls.frame rfl rfl rfl rfl rfl
  | lateDeliver env =>
    cases moved
    exact calls.lateDeliver env
  | deleteAccount =>
    cases moved
    exact calls.frame rfl rfl rfl rfl rfl

/-! ## When the sessions are held -/

/-- A step that records no peer. -/
theorem SessionsHeld.frame (held : SessionsHeld d)
    (device : d'.client.peerDevice = d.client.peerDevice)
    (grows : ∀ address, (d.client.pinned.lookup address).isSome →
      (d'.client.pinned.lookup address).isSome) : SessionsHeld d' := by
  intro p k known
  rw [device] at known
  exact grows _ (held p k known)

/-- A peer's device is recorded rightly exactly when its session is held. -/
theorem held_insert_iff (held : SessionsHeld d) (p : String) (k : Int)
    (device : d'.client.peerDevice = d.client.peerDevice.insert p k)
    (pinned : d'.client.pinned = d.client.pinned) :
    SessionsHeld d' ↔ (d.client.pinned.lookup (p, k)).isSome := by
  constructor
  · intro held'
    have own := held' p k (by rw [device, AList.lookup_insert])
    rwa [pinned] at own
  · intro own p' k' known
    rw [device, FinMap.lookup_insert_apply] at known
    rw [pinned]
    split at known
    · next same =>
      cases known
      rwa [same]
    · exact held p' k' known

theorem recordable_iff {registration : Option Nat}
    (current : registration = some d.registration → (d.client.pinned.lookup (p, k)).isSome) :
    Recordable d registration p k ↔ (d.client.pinned.lookup (p, k)).isSome := by
  constructor
  · rintro (same | held)
    · exact current same
    · exact held
  · exact .inr

/-- The end of `ensureSession` records a peer with its session exactly when that
is held. -/
theorem ensured_iff {bundle : Bundle} (calls : CallsMatch d) (held : SessionsHeld d)
    (found : d.client.sends.lookup id = some task) (stage : task.stage = .established p bundle)
    (device : d'.client.peerDevice = d.client.peerDevice.insert p bundle.deviceId)
    (pinned : d'.client.pinned = d.client.pinned) :
    RecordableSend d id (d.client.sends.lookup id) ↔ SessionsHeld d' := by
  rw [held_insert_iff held p bundle.deviceId device pinned, found]
  have current := calls.established id task p bundle found stage
  obtain ⟨peerUserId, devices, stage'⟩ := task
  cases stage
  exact recordable_iff current

theorem learned_iff (calls : CallsMatch d) (held : SessionsHeld d)
    (found : d.client.inbound.lookup id = some (.decrypted env))
    (device : d'.client.peerDevice =
      if (d.client.peerDevice.lookup env.senderId).isSome then d.client.peerDevice
      else d.client.peerDevice.insert env.senderId env.senderDevice)
    (pinned : d'.client.pinned = d.client.pinned) :
    RecordableInbound d id (d.client.inbound.lookup id) ↔ SessionsHeld d' := by
  rw [found]
  by_cases known : (d.client.peerDevice.lookup env.senderId).isSome = true
  · rw [if_pos known] at device
    refine iff_of_true ?_ (held.frame device (by rw [pinned]; exact fun _ same => same))
    intro unknown
    rw [unknown] at known
    cases known
  · rw [if_neg known] at device
    rw [held_insert_iff held env.senderId env.senderDevice device pinned]
    refine Iff.trans ?_ (recordable_iff (calls.decrypted id env found))
    exact forall_prop_of_true (Option.not_isSome_iff_eq_none.mp known)

theorem matching_of_plain (isPlain : plain a = true) : Matching d (.session a) := by
  cases a with
  | ensured | learn => cases isPlain
  | _ => trivial

theorem matching_of_answering {calls : Calls} {n : Nat} (answered : calls.answering a = some n) :
    Matching d (.session a) := by
  cases a with
  | establishSession | encrypt | decrypt => trivial
  | _ => cases answered

/-- A session step keeps the sessions held exactly when it matches. -/
theorem session_held_iff (calls : CallsMatch d) (held : SessionsHeld d)
    (moved : d.session a = some d') : Matching d (.session a) ↔ SessionsHeld d' := by
  rcases session_cases moved with ⟨c, stepped, rfl⟩ | ⟨n, stores, c, answered, old, stepped, rfl⟩
  · cases step_moves stepped with
    | quiet isPlain _ device =>
      exact iff_of_true (matching_of_plain isPlain) (held.frame device fun _ => step_grows stepped)
    | pins isPlain _ _ device =>
      exact iff_of_true (matching_of_plain isPlain) (held.frame device fun _ => step_grows stepped)
    | backfills _ _ replied =>
      exact iff_of_true trivial (held.frame (fetched_advances replied).1 fun _ => step_grows stepped)
    | ensures found stage ensured =>
      simp only [Client.ensured, stage, Option.some.injEq] at ensured
      subst ensured
      exact ensured_iff calls held found stage rfl rfl
    | learns found => exact learned_iff calls held found rfl rfl
    | records | fetches | seals =>
      exact iff_of_true trivial (held.frame rfl fun _ => step_grows stepped)
  · refine iff_of_true (matching_of_answering answered) (held.frame ?_ fun _ same => same)
    exact (step_answersFor answered stepped).device

theorem keys_eq_nil_iff {m : FinMap String Int} : m.keys = [] ↔ ∀ p, m.lookup p = none := by
  constructor
  · intro empty p
    apply AList.lookup_eq_none.mpr
    rw [AList.mem_keys, empty]
    exact List.not_mem_nil
  · intro absent
    refine List.eq_nil_iff_forall_not_mem.mpr ?_
    intro p member
    exact AList.lookup_eq_none.mp (absent p) (AList.mem_keys.mpr member)

/-- New stores hold none of the sessions of the old ones. -/
theorem generateRegistration_held_iff (call : Onboarding) :
    d.client.peerDevice.keys = [] ↔ SessionsHeld (d.generateRegistration call) := by
  rw [keys_eq_nil_iff]
  constructor
  · intro empty p k known
    exact absurd ((empty p).symm.trans known) (by simp)
  · intro held p
    refine Option.eq_none_iff_forall_ne_some.mpr ?_
    intro k known
    have lost := held p k known
    simp [Device.generateRegistration, onStores] at lost

/-- The next step keeps the sessions held exactly when it matches. -/
theorem step_held_iff {a : Action} (calls : CallsMatch d) (held : SessionsHeld d)
    (moved : d.step a = some d') : Matching d a ↔ SessionsHeld d' := by
  cases a with
  | session a => exact session_held_iff calls held moved
  | encrypt id =>
    obtain ⟨task, -, moved⟩ := Option.bind_eq_some_iff.mp moved
    split at moved
    · cases moved
      exact iff_of_true trivial held
    · cases moved
  | generateRegistration call =>
    simp only [Device.step, Option.ite_none_left_eq_some, Option.some.injEq] at moved
    obtain ⟨-, rfl⟩ := moved
    exact generateRegistration_held_iff call
  | submitOtp =>
    simp only [Device.step, Option.ite_none_right_eq_some, Option.some.injEq] at moved
    obtain ⟨-, rfl⟩ := moved
    exact iff_of_true trivial held
  | answered id reply =>
    obtain ⟨call, -, rfl⟩ := Option.map_eq_some_iff.mp moved
    refine iff_of_true trivial ?_
    cases reply with
    | none => exact held
    | some userId =>
      cases call with
      | onboard | requestOtp | linkWithCode | submitOtp => exact held
  | lateDeliver env =>
    cases moved
    exact iff_of_true trivial held
  | deleteAccount =>
    cases moved
    exact iff_of_true trivial held

theorem reached_callsMatch {ok : Device → Action → Prop} (reached : device.Reached ok d) :
    CallsMatch d := by
  refine reached.invariant CallsMatch ?_ fun _ _ _ calls _ moved => step_callsMatch calls moved
  rintro d ⟨pinned, rfl⟩
  refine ⟨?_, ?_, ?_, ?_⟩
  · intro id n made
    cases made
  · intro id n made
    cases made
  · intro id task p bundle found
    cases found
  · intro id env found
    cases found

theorem reached_held (reached : device.Reached Matching d) : SessionsHeld d := by
  have known (d : Device) (before : device.Reached Matching d) : CallsMatch d :=
    reached_callsMatch before
  refine reached.invariant_under SessionsHeld known ?_ ?_
  · rintro d ⟨pinned, rfl⟩ p k found
    cases found
  · exact fun _ _ _ calls held matching moved => (step_held_iff calls held moved).mp matching

/-- Encrypting to a peer's device that is known needs no more than the provider's
consent. -/
theorem encrypt_of_held (held : SessionsHeld d) (stage : task.stage = .encrypting p k)
    (known : d.client.peerDevice.lookup p = some k) :
    ∃ c, d.client.encrypt id task true = some c ∧
      c.sealed.length = d.client.sealed.length + 1 := by
  obtain ⟨identity, found⟩ := Option.isSome_iff_exists.mp (held p k known)
  simp only [Client.encrypt, stage, Client.setSend, found, if_true, Option.some.injEq,
    exists_eq_left']
  exact List.length_append

/-- **The session cache matches the key stores, in every matching run.** In every
run that replaces the stores only while no peer is known, and records a peer
only with a session of the current stores, these have the session of every
device that is known, and encrypting to it does not fail for lack of one; and
the next step keeps this exactly when it matches. -/
theorem session_cache_matches_stores (reached : device.Reached Matching d) :
    SessionsHeld d ∧
      (∀ id task p k, d.client.sends.lookup id = some task → task.stage = .encrypting p k →
        d.client.peerDevice.lookup p = some k →
          ∃ c, d.client.encrypt id task true = some c ∧
            c.sealed.length = d.client.sealed.length + 1) ∧
      ∀ a d', d.step a = some d' → (Matching d a ↔ SessionsHeld d') := by
  have held := reached_held reached
  refine ⟨held, ?_, ?_⟩
  · exact fun id task p k _ stage known => encrypt_of_held held stage known
  · exact fun a d' moved => step_held_iff (reached_callsMatch reached) held moved

/-- A user onboards, writes to a peer and deletes the account. -/
def firstIdentity : List Action :=
  [ .generateRegistration .onboard,
    .answered 0 (some "alice"),
    .session (.sendText "bob" 0),
    .session (.listed 0 none 1),
    .session (.loop 0),
    .session (.fetched 0 (some ⟨1, some "bobKey"⟩)),
    .session (.establishSession 0 true),
    .session (.ensured 0),
    .encrypt 0,
    .session (.encrypt 0 true),
    .session (.loop 0),
    .deleteAccount ]

/-- The next one onboards in the same process, and writes to the same peer. -/
def secondIdentity : List Action :=
  [ .generateRegistration .onboard,
    .answered 1 (some "carol"),
    .session (.sendText "bob" 2),
    .session (.loop 1),
    .encrypt 1,
    .session (.encrypt 1 true),
    .session (.loop 1) ]

/-- The peer's device and session, how many messages were encrypted, and how
many sends still run. -/
structure Observed where
  known : Option Int
  session : Option String
  sealed : Nat
  sends : Nat
  deriving DecidableEq

def observe (d : Device) : Observed :=
  ⟨d.client.peerDevice.lookup "bob", d.client.pinned.lookup ("bob", 1), d.client.sealed.length,
    d.client.sends.values.length⟩

theorem first_identity_matches : ∃ d, device.Reached Matching d ∧
    observe d = ⟨some 1, some "bobKey", 1, 0⟩ ∧ SessionsHeld d ∧
      (∀ id task p k, d.client.sends.lookup id = some task → task.stage = .encrypting p k →
        d.client.peerDevice.lookup p = some k →
          ∃ c, d.client.encrypt id task true = some c ∧
            c.sealed.length = d.client.sealed.length + 1) ∧
      ∀ a d', d.step a = some d' → (Matching d a ↔ SessionsHeld d') := by
  have observed : (device.checkedRun Matching { client := {} } firstIdentity).map observe =
      some ⟨some 1, some "bobKey", 1, 0⟩ := by
    decide +kernel
  obtain ⟨d, ran, seen⟩ := Option.map_eq_some_iff.mp observed
  have reached : device.Reached Matching d := .checkedRun (.start ⟨∅, rfl⟩) _ ran
  exact ⟨d, reached, seen, session_cache_matches_stores reached⟩

/-- The peer is still known, without a session: the second message goes nowhere. -/
theorem second_identity_lacks_session : ∃ d, device.Reachable d ∧
    observe d = ⟨some 1, none, 1, 0⟩ ∧ ¬ SessionsHeld d := by
  have observed : (device.run { client := {} } (firstIdentity ++ secondIdentity)).map observe =
      some ⟨some 1, none, 1, 0⟩ := by
    decide +kernel
  obtain ⟨d, reachable, seen⟩ := Machine.reachable_of_observed observed ⟨∅, rfl⟩
  refine ⟨d, reachable, seen, ?_⟩
  intro held
  obtain ⟨known, session, -⟩ := Observed.mk.inj seen
  have lost := held "bob" 1 known
  rw [session] at lost
  cases lost

end Hwfa.ClientIdentities
