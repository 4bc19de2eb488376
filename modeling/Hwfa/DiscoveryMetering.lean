import Hwfa.ContactsDiscovery
import Hwfa.DiscoveryRevocation
import Hwfa.Metering

/-!
The budget of contact discovery: what `handlers.intersect` grants to an account.

`allowIntersect` keeps a window for each device, in memory.  The service runs as for
revocation; beside it `granted` is a history of the batches that were granted, and
`accountOf` of the account that every device was registered or linked to, be it
removed since or not.  `boots` counts the restarts.
-/

namespace Hwfa.DiscoveryMetering

open Hwfa.Machines Hwfa.Maps Hwfa.Metering Hwfa.DiscoveryStore Hwfa.DiscoveryService
  Hwfa.DiscoveryRevocation
open Hwfa.ContactsDiscovery (maxIntersectHashes)

/-- Who a batch was granted to, and by which process. -/
structure Asker where
  device : String
  account : String
  boot : Nat
  deriving DecidableEq

structure Meter where
  realm : Realm
  accountOf : FinMap String String := ∅
  boots : Nat := 0
  granted : List (Charge Asker) := []

inductive Action where
  | realm (a : DiscoveryRevocation.Action)
  /-- `handlers.intersect` for a batch of this many hashes -/
  | intersect (token : Token) (count : Nat)

/-- The device that a request makes, and its account. -/
def joins (s : Store) : DiscoveryRevocation.Action → Option (String × String)
  | .request (.register req userID otp now) _ =>
    (s.register req userID otp now).result.map fun _ => (userID, userID)
  | .request (.linkDevice token req userID now) _ =>
    (s.linkDevice token req userID now).result.map fun answer => (userID, answer.2.1)
  | _ => none

/-- Only the handler charges a window. -/
def meters : DiscoveryRevocation.Action → Bool
  | .request (.allowIntersect ..) _ => true
  | _ => false

def restarts : DiscoveryRevocation.Action → Bool
  | .restart .. => true
  | _ => false

def Meter.store (s : Meter) : Store := s.realm.service.store

def Meter.asker (s : Meter) (userID : String) : Asker :=
  ⟨userID, (s.accountOf.lookup userID).getD userID, s.boots⟩

/-- `allowIntersect`, for a caller whose token has been checked. -/
def Meter.charge (s : Meter) (userID : String) (count : Nat) : Meter :=
  let now := s.realm.now
  let allowed := (s.store.allowIntersect userID count now).result
  { s with
    realm := { s.realm with service := s.realm.service.handle false (.allowIntersect userID count now) }
    granted := if allowed then s.granted ++ [⟨s.asker userID, now, count⟩] else s.granted }

/-- `handlers.intersect`, up to the answer. -/
def Meter.intersect (s : Meter) (token : Token) (count : Nat) : Meter :=
  match userForToken token s.realm.now with
  | none => s
  | some userID => if maxIntersectHashes < count then s else s.charge userID count

/-- What happens to the rest of Discovery. -/
def Meter.around (s : Meter) (a : DiscoveryRevocation.Action) (realm : Realm) : Meter :=
  { s with
    realm := realm
    accountOf := match joins s.store a with
      | some (device, account) => s.accountOf.insert device account
      | none => s.accountOf
    boots := if restarts a then s.boots + 1 else s.boots }

def Meter.step (s : Meter) : Action → Option Meter
  | .realm a => if meters a then none else (s.realm.step a).map (s.around a)
  | .intersect token count => if token ∈ s.realm.issued then some (s.intersect token count) else none

def meter : Machine Meter Action where
  start s := ∃ r, DiscoveryRevocation.realm.start r ∧ s = { realm := r }
  step := Meter.step

/-- The account was granted a batch no longer than a window ago. -/
def Recent (s : Meter) (account : String) (c : Charge Asker) : Prop :=
  c.holder.account = account ∧ s.realm.now - intersectWindow ≤ c.time

/-- In no interval that is not longer than a window is an account granted more than two
budgets. -/
def Bounded (s : Meter) : Prop :=
  ∀ account since until', until' - since ≤ intersectWindow →
    spent s.granted (fun c => c.holder.account = account ∧ since ≤ c.time ∧ c.time ≤ until') ≤
      2 * intersectBudget

/-- A request that is refused leaves what every device has left. -/
def RefusalsAreFree (s : Meter) : Prop :=
  ∀ token count, (s.intersect token count).granted = s.granted → ∀ device,
    chargedWindow ((s.intersect token count).store.intersectUse.lookup device) s.realm.now =
      chargedWindow (s.store.intersectUse.lookup device) s.realm.now

instance (s : Meter) (account : String) : DecidablePred (Recent s account) := fun c => by
  unfold Recent
  infer_instance

/-- What the account was granted within the last window, it was granted on this device
by this process. -/
def Alone (s : Meter) (a : Asker) : Prop :=
  ∀ c ∈ s.granted, Recent s a.account c → c.holder.device = a.device ∧ c.holder.boot = a.boot

/-- With the batch, the account stays within two budgets. -/
def Room (s : Meter) (a : Asker) (count : Nat) : Prop :=
  spent s.granted (Recent s a.account) + count ≤ 2 * intersectBudget

/-- An account asks from one device and one process at a time, or has room for the
batch anyway. -/
def Fits (s : Meter) : Action → Prop
  | .realm _ => True
  | .intersect token count =>
    match userForToken token s.realm.now with
    | none => True
    | some userID => Alone s (s.asker userID) ∨ Room s (s.asker userID) count

instance (s : Meter) (a : Asker) : Decidable (Alone s a) := by
  unfold Alone
  infer_instance

instance (s : Meter) (a : Asker) (count : Nat) : Decidable (Room s a count) := by
  unfold Room
  infer_instance

instance (s : Meter) (a : Action) : Decidable (Fits s a) := by
  unfold Fits
  split
  · infer_instance
  · split <;> infer_instance

variable {s s' : Meter} {userID : String} {count : Nat} {token : Token} {now : Int} {store : Store}

/-! ### One batch -/

/-- A window that was charged just now is still open. -/
theorem chargedWindow_idem (last : Option RateWindow) (used : Nat) :
    chargedWindow (some { chargedWindow last now with used := used }) now =
      { chargedWindow last now with used := used } := by
  have live : ¬ intersectWindow ≤ now - (chargedWindow last now).windowStart := by
    unfold chargedWindow
    split
    · split
      · simp [intersectWindow, second]
      · next live => exact live
    · simp [intersectWindow, second]
  exact if_neg live

/-- What a request does to the windows. -/
theorem allowIntersect_windows (device : String) :
    (store.allowIntersect userID count now).store.intersectUse.lookup device =
      if device = userID then
        some { chargedWindow (store.intersectUse.lookup userID) now with
          used := (chargedWindow (store.intersectUse.lookup userID) now).used +
            if (store.allowIntersect userID count now).result then count else 0 }
      else store.intersectUse.lookup device := by
  unfold Store.allowIntersect
  dsimp only
  split
  · rw [FinMap.lookup_insert_apply]
    rfl
  · rw [FinMap.lookup_insert_apply]
    rfl

theorem allowed_iff : (store.allowIntersect userID count now).result = true ↔
    (chargedWindow (store.intersectUse.lookup userID) now).used + count ≤ intersectBudget := by
  unfold Store.allowIntersect
  dsimp only
  split
  · next beyond => simpa using beyond
  · next fits => simpa using fits

/-- A refused request leaves every window as the next request finds it. -/
theorem windows_of_refused (refused : (store.allowIntersect userID count now).result = false)
    (device : String) :
    chargedWindow ((store.allowIntersect userID count now).store.intersectUse.lookup device) now =
      chargedWindow (store.intersectUse.lookup device) now := by
  rw [allowIntersect_windows]
  split
  · next own =>
    rw [refused, chargedWindow_idem, own]
    rfl
  · rfl

theorem store_charge : (s.charge userID count).store =
    (s.store.allowIntersect userID count s.realm.now).store := rfl

theorem granted_charge : (s.charge userID count).granted =
    if (s.store.allowIntersect userID count s.realm.now).result then
      s.granted ++ [⟨s.asker userID, s.realm.now, count⟩] else s.granted := rfl

/-- A request of the handler reaches `allowIntersect`, or does nothing. -/
theorem intersect_cases (s : Meter) (token : Token) (count : Nat) :
    s.intersect token count = s ∨ ∃ userID, userForToken token s.realm.now = some userID ∧
      s.intersect token count = s.charge userID count := by
  unfold Meter.intersect
  split
  · exact .inl rfl
  · next userID caller =>
    split
    · exact .inl rfl
    · exact .inr ⟨userID, caller, rfl⟩

/-- Being refused costs nothing. -/
theorem refusalsAreFree (s : Meter) : RefusalsAreFree s := by
  intro token count same device
  rcases intersect_cases s token count with idle | ⟨userID, -, reached⟩
  · rw [idle]
  · rw [reached] at same ⊢
    have refused : (s.store.allowIntersect userID count s.realm.now).result = false := by
      rw [granted_charge] at same
      split at same
      · exact absurd same (by simp)
      · next refused => exact eq_false_of_ne_true refused
    exact windows_of_refused refused device

/-! ### The windows of one process -/

/-- The device asked this process. -/
def Asks (userID : String) (boots : Nat) (a : Asker) : Prop := a.device = userID ∧ a.boot = boots

instance (userID : String) (boots : Nat) : DecidablePred (Asks userID boots) := fun a => by
  unfold Asks
  infer_instance

/-- The last window of a device, with all that this process granted it. -/
def Kept (s : Meter) (userID : String) : Option RateWindow → Prop
  | none => ∀ c ∈ s.granted, ¬ Asks userID s.boots c.holder
  | some w => w.windowStart ≤ s.realm.now ∧
    Metered intersectWindow intersectBudget s.granted (Asks userID s.boots) w.windowStart w.used

/-- What the windows in memory know. -/
structure Tracked (s : Meter) : Prop where
  past : ∀ c ∈ s.granted, c.time ≤ s.realm.now
  boots : ∀ c ∈ s.granted, c.holder.boot ≤ s.boots
  windows : ∀ userID, Kept s userID (s.store.intersectUse.lookup userID)

/-- The window that a request is charged to. -/
theorem Tracked.charged (tracked : Tracked s) (userID : String) :
    (chargedWindow (s.store.intersectUse.lookup userID) s.realm.now).windowStart ≤ s.realm.now ∧
    s.realm.now < (chargedWindow (s.store.intersectUse.lookup userID) s.realm.now).windowStart +
      intersectWindow ∧
    Metered intersectWindow intersectBudget s.granted (Asks userID s.boots)
      (chargedWindow (s.store.intersectUse.lookup userID) s.realm.now).windowStart
      (chargedWindow (s.store.intersectUse.lookup userID) s.realm.now).used := by
  have wide : 0 < intersectWindow := by decide
  have kept := tracked.windows userID
  cases last : s.store.intersectUse.lookup userID with
  | none =>
    rw [last] at kept
    exact ⟨le_rfl, Int.lt_add_of_pos_right _ wide, .first kept⟩
  | some w =>
    rw [last] at kept
    obtain ⟨opened, metered⟩ := kept
    unfold chargedWindow
    dsimp only
    split
    · next elapsed =>
      exact ⟨le_rfl, Int.lt_add_of_pos_right _ wide, metered.renew wide.le (by dsimp only; omega)⟩
    · next live => exact ⟨opened, by omega, metered⟩

/-- A batch leaves the window of another device right. -/
theorem Kept.charge {device : String} {last : Option RateWindow} (kept : Kept s device last)
    {userID : String} (other : device ≠ userID) (count : Nat) :
    Kept (s.charge userID count) device last := by
  have foreign : ¬ Asks device s.boots (s.asker userID) := fun same => other same.1.symm
  cases last with
  | none =>
    intro c member
    rw [granted_charge] at member
    split at member
    · rcases List.mem_append.mp member with old | new
      · exact kept c old
      · rw [List.mem_singleton.mp new]
        exact foreign
    · exact kept c member
  | some w =>
    refine ⟨kept.1, ?_⟩
    rw [granted_charge]
    split
    · exact kept.2.other foreign
    · exact kept.2

/-- A batch of the handler keeps the windows right. -/
theorem Tracked.charge (tracked : Tracked s) (userID : String) (count : Nat) :
    Tracked (s.charge userID count) := by
  obtain ⟨opened, live, metered⟩ := tracked.charged userID
  have own : Asks userID s.boots (s.asker userID) := ⟨rfl, rfl⟩
  have granted : ∀ c ∈ (s.charge userID count).granted,
      c ∈ s.granted ∨ c = ⟨s.asker userID, s.realm.now, count⟩ := by
    intro c member
    rw [granted_charge] at member
    split at member
    · exact (List.mem_append.mp member).imp_right List.mem_singleton.mp
    · exact .inl member
  refine ⟨?_, ?_, ?_⟩
  · intro c member
    rcases granted c member with old | rfl
    · exact tracked.past c old
    · exact le_rfl
  · intro c member
    rcases granted c member with old | rfl
    · exact tracked.boots c old
    · exact le_rfl
  · intro device
    rw [store_charge, allowIntersect_windows]
    split
    · next same =>
      subst same
      refine ⟨opened, ?_⟩
      rw [granted_charge]
      cases allowed : (s.store.allowIntersect device count s.realm.now).result with
      | false => exact metered
      | true => exact metered.charge own opened live (allowed_iff.mp allowed)
    · next other => exact (tracked.windows device).charge other count

/-- No other request reads or writes a window. -/
theorem handle_windows {service : Service} {r : Request} {wrote : Bool}
    (other : meters (.request r wrote) = false) :
    (service.handle wrote r).store.intersectUse = service.store.intersectUse := by
  cases r with
  | register req userID otp now =>
    simp only [Service.handle, Service.commit, Store.register]
    split <;> rfl
  | verify userID code now =>
    simp only [Service.handle, Service.commit, Store.verify]
    repeat' split
    all_goals rfl
  | createLinkToken => rfl
  | linkDevice token req userID now =>
    simp only [Service.handle, Service.commit, Store.linkDevice]
    repeat' split
    all_goals rfl
  | deleteAccount userID =>
    simp only [Service.handle, Service.commit, Store.deleteAccount]
    split <;> rfl
  | removeDevice caller target =>
    simp only [Service.handle, Service.commit, Store.removeDevice]
    repeat' split
    all_goals rfl
  | bundleFor userID =>
    simp only [Service.handle, Service.commit, Store.bundleFor]
    repeat' split
    all_goals rfl
  | addOneTime userID keys =>
    simp only [Service.handle, Service.commit, Store.addOneTime]
    split <;> rfl
  | allowIntersect => cases other

/-- What else happens to Discovery lets time pass, and leaves the windows unless it is
a restart, which forgets them all. -/
theorem realm_step {w w' : Realm} {a : DiscoveryRevocation.Action} (moved : w.step a = some w')
    (other : meters a = false) : w.now ≤ w'.now ∧
      w'.service.store.intersectUse = if restarts a then ∅ else w.service.store.intersectUse := by
  cases a with
  | tick elapsed =>
    cases moved
    exact ⟨Int.le_add_of_nonneg_right (Int.natCast_nonneg elapsed), rfl⟩
  | request r wrote =>
    simp only [Realm.step, Option.ite_none_right_eq_some, Option.some.injEq] at moved
    obtain ⟨-, rfl⟩ := moved
    exact ⟨le_rfl, handle_windows other⟩
  | refresh refreshToken =>
    simp only [Realm.step, Option.ite_none_right_eq_some, Option.some.injEq] at moved
    obtain ⟨-, rfl⟩ := moved
    unfold Realm.refresh
    split <;> exact ⟨le_rfl, rfl⟩
  | linkToken token =>
    simp only [Realm.step, Option.ite_none_right_eq_some, Option.some.injEq] at moved
    obtain ⟨-, rfl⟩ := moved
    unfold Realm.linkToken
    split <;> exact ⟨le_rfl, rfl⟩
  | accountIDFor call =>
    simp only [Realm.step] at moved
    split at moved
    · cases moved
      unfold Realm.accountIDFor
      split <;> exact ⟨le_rfl, rfl⟩
    · cases moved
  | createLinkToken call token =>
    simp only [Realm.step] at moved
    split at moved
    · split at moved
      · cases moved
      · cases moved
        exact ⟨le_rfl, rfl⟩
    · cases moved
  | restart freshSalt readable =>
    cases moved
    refine ⟨le_rfl, ?_⟩
    simp only [boot, Store.load, restarts, if_true]
    repeat' split
    all_goals rfl

theorem Tracked.around (tracked : Tracked s) {a : DiscoveryRevocation.Action} {r : Realm}
    (moved : s.realm.step a = some r) (other : meters a = false) : Tracked (s.around a r) := by
  obtain ⟨later, windows⟩ := realm_step moved other
  have past : ∀ c ∈ s.granted, c.time ≤ r.now :=
    fun c member => (tracked.past c member).trans later
  cases restarted : restarts a with
  | true =>
    refine ⟨past, ?_, ?_⟩
    · intro c member
      rw [Meter.around, restarted]
      exact (tracked.boots c member).trans (Nat.le_succ _)
    · intro userID
      have forgotten : (s.around a r).store.intersectUse.lookup userID = none := by
        rw [Meter.store, Meter.around, windows, restarted]
        rfl
      rw [forgotten]
      rintro c member ⟨-, process⟩
      have before := tracked.boots c member
      rw [Meter.around, restarted] at process
      simp only [if_true] at process
      omega
  | false =>
    have boots : (s.around a r).boots = s.boots := by
      rw [Meter.around, restarted]
      rfl
    refine ⟨past, boots ▸ tracked.boots, ?_⟩
    intro userID
    have same : (s.around a r).store.intersectUse = s.store.intersectUse := by
      rw [Meter.store, Meter.around, windows, restarted]
      rfl
    have kept := tracked.windows userID
    rw [same]
    cases last : s.store.intersectUse.lookup userID with
    | none =>
      rw [last] at kept
      unfold Kept
      rw [boots]
      exact kept
    | some w =>
      rw [last] at kept
      unfold Kept
      rw [boots]
      exact ⟨kept.1.trans later, kept.2⟩

/-- A step of the machine is one of Discovery's or a request of the handler. -/
theorem step_cases {a : Action} (moved : s.step a = some s') :
    (∃ b r, a = .realm b ∧ meters b = false ∧ s.realm.step b = some r ∧ s' = s.around b r) ∨
      ∃ token count, a = .intersect token count ∧ s' = s.intersect token count := by
  cases a with
  | realm b =>
    simp only [Meter.step, Option.ite_none_left_eq_some, Option.map_eq_some_iff] at moved
    obtain ⟨other, r, stepped, rfl⟩ := moved
    exact .inl ⟨b, r, rfl, eq_false_of_ne_true other, stepped, rfl⟩
  | intersect token count =>
    simp only [Meter.step, Option.ite_none_right_eq_some, Option.some.injEq] at moved
    exact .inr ⟨token, count, rfl, moved.2.symm⟩

theorem tracked_of_reachable (reachable : meter.Reachable s) : Tracked s := by
  refine reachable.invariant Tracked ?_ ?_
  · rintro s ⟨r, ⟨path, salt, now, rfl⟩, rfl⟩
    refine ⟨by simp, by simp, ?_⟩
    intro userID c member
    cases member
  · intro s a s' tracked _ moved
    rcases step_cases moved with ⟨b, r, rfl, other, stepped, rfl⟩ | ⟨token, count, rfl, rfl⟩
    · exact tracked.around stepped other
    · rcases intersect_cases s token count with idle | ⟨userID, -, reached⟩
      · rw [idle]
        exact tracked
      · rw [reached]
        exact tracked.charge userID count

/-! ### An account -/

/-- What counts in an interval that a new batch is in. -/
theorem spent_le_recent {account : String} {since until' : Int} (inside : s.realm.now ≤ until') (short : until' - since ≤ intersectWindow) :
    spent s.granted (fun c => c.holder.account = account ∧ since ≤ c.time ∧ c.time ≤ until') ≤
      spent s.granted (Recent s account) := by
  refine spent_mono ?_
  rintro c - ⟨own, later, -⟩
  exact ⟨own, by omega⟩

/-- A device alone is not granted more than two budgets within a window. -/
theorem Alone.room (alone : Alone s (s.asker userID)) (tracked : Tracked s)
    (allowed : (s.store.allowIntersect userID count s.realm.now).result = true) :
    Room s (s.asker userID) count := by
  obtain ⟨opened, -, metered⟩ := tracked.charged userID
  have fits := allowed_iff.mp allowed
  have recent := metered.recent opened
  have own : spent s.granted (Recent s (s.asker userID).account) ≤
      spent s.granted (fun c => Asks userID s.boots c.holder ∧ s.realm.now - intersectWindow ≤ c.time) := by
    refine spent_mono ?_
    intro c member counted
    exact ⟨alone c member counted, counted.2⟩
  unfold Room
  omega

/-- A batch that fits keeps the bound. -/
theorem Bounded.charge (bounded : Bounded s) (tracked : Tracked s)
    (fits : Alone s (s.asker userID) ∨ Room s (s.asker userID) count) :
    Bounded (s.charge userID count) := by
  intro account since until' short
  have before := bounded account since until' short
  rw [granted_charge]
  split
  · next allowed =>
    rw [spent_append]
    split
    · next counted =>
      obtain ⟨own, later, inside⟩ := counted
      have room : Room s (s.asker userID) count :=
        fits.elim (fun alone => alone.room tracked allowed) id
      have recent : spent s.granted _ ≤ spent s.granted (Recent s account) :=
        spent_le_recent inside short
      unfold Room at room
      dsimp only at own
      rw [own] at room
      dsimp only
      omega
    · exact before
  · exact before

/-- A batch that does not fit, and is granted, breaks it. -/
theorem Tracked.unfit (tracked : Tracked s) (unfit : ¬ Room s (s.asker userID) count)
    (granted : (s.charge userID count).granted ≠ s.granted) : ¬ Bounded (s.charge userID count) := by
  intro bounded
  have total := bounded (s.asker userID).account (s.realm.now - intersectWindow) s.realm.now (by omega)
  rw [granted_charge] at total granted
  split at total
  · have now : spent s.granted (fun c => c.holder.account = (s.asker userID).account ∧
        s.realm.now - intersectWindow ≤ c.time ∧ c.time ≤ s.realm.now) =
        spent s.granted (Recent s (s.asker userID).account) := by
      refine spent_congr ?_
      intro c member
      simp only [Recent, tracked.past c member, and_true]
    have window : 0 ≤ intersectWindow := by decide
    rw [spent_append, if_pos ⟨rfl, by dsimp only; omega, le_rfl⟩, now] at total
    exact unfit total
  · next refused =>
    rw [if_neg refused] at granted
    exact granted rfl

/-- **The budget binds an account that asks from one device at a time.** In every run,
whatever devices accounts link and lose, where a batch comes either from the only
device and process the account was granted hashes by within the last window, or has
room within two budgets beside those: no account is granted more than two budgets in
any interval as long as a window, and a refused request charges nothing.  The first
batch that is granted otherwise takes its account beyond the bound. -/
theorem budget_binds_lone_devices (reached : meter.Reached Fits s) :
    Bounded s ∧ RefusalsAreFree s ∧ ∀ token count, ¬ Fits s (.intersect token count) →
      (s.intersect token count).granted ≠ s.granted → ¬ Bounded (s.intersect token count) := by
  refine ⟨?_, refusalsAreFree s, ?_⟩
  · have tracked : ∀ s, meter.Reached Fits s → Tracked s :=
      fun s reached => tracked_of_reachable reached.reachable
    refine reached.invariant_under Bounded tracked ?_ ?_
    · rintro s ⟨r, -, rfl⟩ account since until' -
      exact Nat.zero_le _
    · intro s a s' tracked bounded fits moved
      rcases step_cases moved with ⟨b, r, rfl, other, stepped, rfl⟩ | ⟨token, count, rfl, rfl⟩
      · exact bounded
      · rcases intersect_cases s token count with idle | ⟨userID, caller, asked⟩
        · rw [idle]
          exact bounded
        · rw [asked]
          unfold Fits at fits
          simp only [caller] at fits
          exact bounded.charge tracked fits
  · intro token count unfit granted
    rcases intersect_cases s token count with idle | ⟨userID, caller, asked⟩
    · exact absurd (congrArg Meter.granted idle) granted
    · rw [asked] at granted ⊢
      unfold Fits at unfit
      simp only [caller, not_or] at unfit
      exact (tracked_of_reachable reached.reachable).unfit unfit.2 granted

/-- Five full batches for the device. -/
def scans (userID : String) : List Action :=
  List.replicate 5 (.intersect ⟨userID, "access", accessTTL⟩ maxIntersectHashes)

/-- A phone with a laptop linked to it. -/
def twoDevices : List Action := phoneAndLaptop.map .realm

/-- A tablet is linked to the phone as well. -/
def thirdDevice : List Action :=
  [ .realm (.linkToken ⟨"phone", "access", accessTTL⟩),
    .realm (.accountIDFor 1),
    .realm (.createLinkToken 1 "second"),
    .realm (.request (.linkDevice "second" (deviceKeys "") "tablet" 0) true) ]

/-- What the phone's account was granted at the one time at which anything was. -/
def phoneTotal (s : Meter) : Nat :=
  spent s.granted (fun c => c.holder.account = "phone" ∧ 0 ≤ c.time ∧ c.time ≤ 0)

/-- The phone spends its budget; one more hash is refused. -/
theorem phone_is_throttled : ∃ s, meter.Reached Fits s ∧ phoneTotal s = intersectBudget ∧
    Bounded s ∧ RefusalsAreFree s := by
  have observed : (meter.checkedRun Fits { realm := { service := started "" [1, 2], now := 0 } }
      (twoDevices ++ scans "phone" ++ [.intersect ⟨"phone", "access", accessTTL⟩ 1])).map phoneTotal =
      some intersectBudget := by
    decide +kernel
  obtain ⟨s, reached, seen⟩ := Machine.reached_of_observed observed
    (.start ⟨_, ⟨"", [1, 2], 0, rfl⟩, rfl⟩)
  obtain ⟨bounded, free, -⟩ := budget_binds_lone_devices reached
  exact ⟨s, reached, seen, bounded, free⟩

/-- Three devices of one account are granted three budgets at once. -/
theorem three_devices_have_three_budgets : ¬ ∀ s, meter.Reachable s → Bounded s := by
  have observed : (meter.run { realm := { service := started "" [1, 2], now := 0 } }
      (twoDevices ++ thirdDevice ++ scans "phone" ++ scans "laptop" ++ scans "tablet")).map phoneTotal =
      some (3 * intersectBudget) := by
    decide +kernel
  obtain ⟨s, reachable, seen⟩ := Machine.reachable_of_observed observed
    ⟨_, ⟨"", [1, 2], 0, rfl⟩, rfl⟩
  intro always
  have total : phoneTotal s ≤ 2 * intersectBudget := always s reachable "phone" 0 0 (by decide)
  rw [seen] at total
  exact absurd total (by decide)

end Hwfa.DiscoveryMetering
