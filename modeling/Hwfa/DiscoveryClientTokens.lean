import Hwfa.DiscoveryClient

/-!
Whose tokens the client of Discovery holds (`packages/client/src/discovery.ts`).

A refresh that answers overwrites the tokens that are there by then.  A step is
`Timely` if the tokens that it leaves are of one user, the one whose credentials were
installed last: a refresh that ends has to be of that user still.
-/

namespace Hwfa.DiscoveryClientTokens

open Hwfa.Machines Hwfa.Maps Hwfa.DiscoveryClient

/-- Whose credentials were installed last.  Deleting the account installs nobody's if
`deletions` counts, and otherwise changes nothing. -/
def user (deletions : Bool) (c : Client) : Option String :=
  if deletions then c.installed.head?.join else (c.installed.filterMap id).head?

/-- The tokens held are of the user whose credentials were installed last. -/
def Consistent (deletions : Bool) (c : Client) : Prop :=
  ∀ t, c.token = some t ∨ c.refresh_ = some t → user deletions c = some t.uid

def AtMostOneRefresh (c : Client) : Prop :=
  ∀ id task id' task', c.tasks.lookup id = some task → c.tasks.lookup id' = some task' →
    task.operation.isRefresh → task'.operation.isRefresh → id = id'

def AtMostTwoFetches (c : Client) : Prop := ∀ id, c.fetches.countP (·.call = id) ≤ 2

/-- A refresh answers for the user whose credentials were installed last, tokens are given
that fit together, and, if deletions count, none is left where the account is deleted. -/
def Timely (deletions : Bool) (c : Client) : Action → Bool
  | .setToken token => c.refresh_.all (·.uid = token.uid)
  | .setTokens access refresh => access.uid = refresh.uid
  | .responded id (some status) =>
    match c.tasks.lookup id with
    | some ⟨.deleteAccount, .fetching _⟩ =>
      !deletions || c.refresh_.isNone || !(200 ≤ status ∧ status < 300)
    | _ => true
  | .read id (some _) =>
    match c.tasks.lookup id with
    | some ⟨.refresh sent, .reading⟩ => user deletions c = some sent.uid
    | _ => true
  | _ => true

/-! ## Steps -/

/-- What a step comes down to. -/
inductive Moves (c : Client) : Action → Client → Prop where
  | sets {token : Token} : Moves c (.setToken token) (c.setToken token)
  | setsBoth {access refresh : Token} :
    Moves c (.setTokens access refresh) (c.setTokens access refresh)
  | rests {a : Action} (quiet : ∀ d, Timely d c a = true) : Moves c a c
  | refreshes {a : Action} (quiet : ∀ d, Timely d c a = true) : Moves c a c.refresh
  | begins {operation : Operation} (other : operation.isRefresh = false) :
    Moves c (.call operation) (c.begins operation)
  | awaits {id refresh : Nat} {operation : Operation} {a : Action}
      (found : c.tasks.lookup id = some ⟨operation, .fetching false⟩)
      (quiet : ∀ d, Timely d c a = true) :
    Moves c a (c.refresh.proceeds id operation (.awaiting refresh))
  | responds {id : Nat} {operation : Operation} {retried : Bool} {a : Action}
      (found : c.tasks.lookup id = some ⟨operation, .fetching retried⟩)
      (quiet : ∀ d, Timely d c a = true) : Moves c a (c.proceeds id operation .reading)
  | deletes {id status : Nat} {retried : Bool}
      (found : c.tasks.lookup id = some ⟨.deleteAccount, .fetching retried⟩)
      (accepted : 200 ≤ status ∧ status < 300) :
    Moves c (.responded id (some status))
      { c.ends id .deleteAccount true with token := none, installed := none :: c.installed }
  | ends {id : Nat} {task : Task} {a : Action} (resolved : Bool)
      (found : c.tasks.lookup id = some task) (quiet : ∀ d, Timely d c a = true) :
    Moves c a (c.ends id task.operation resolved)
  | takes {id : Nat} {operation : Operation} {body : Body}
      (found : c.tasks.lookup id = some ⟨operation, .reading⟩) (issued : operation.issues body) :
    Moves c (.read id (some body))
      ((c.takes operation body).1.ends id operation (c.takes operation body).2)
  | retries {id refresh : Nat} {operation : Operation} {a : Action}
      (found : c.tasks.lookup id = some ⟨operation, .awaiting refresh⟩)
      (quiet : ∀ d, Timely d c a = true) : Moves c a (c.sends id operation true)

variable {c c' : Client} {a : Action} {id : Nat} {task : Task} {deletions : Bool}

/-- A response is timely unless an account is deleted by it. -/
theorem timely_responded {status : Option Nat} (found : c.tasks.lookup id = some task)
    (other : task.operation = .deleteAccount → ∀ n, status = some n → ¬ (200 ≤ n ∧ n < 300)) :
    Timely deletions c (.responded id status) = true := by
  cases status with
  | none => rfl
  | some status =>
    simp only [Timely, found]
    split
    · next same =>
      cases same
      have refused := other rfl status rfl
      simp [refused]
    · rfl

theorem moves_responded {status : Option Nat} (found : c.tasks.lookup id = some task)
    (moved : c.responded id status task = some c') : Moves c (.responded id status) c' := by
  obtain ⟨operation, stage⟩ := task
  cases stage with
  | fetching retried =>
    cases status with
    | none =>
      cases moved
      exact .ends false found fun d => rfl
    | some status =>
      simp only [Client.responded] at moved
      split at moved
      · next refused =>
        obtain ⟨same, -, rfl, -⟩ := refused
        obtain ⟨refresh, -, rfl⟩ := Option.map_eq_some_iff.mp moved
        refine .awaits found fun d => timely_responded found ?_
        rintro - n ⟨⟩
        omega
      · split at moved
        · next refused =>
          cases moved
          refine .ends false found fun d => timely_responded found ?_
          rintro - n ⟨⟩
          exact refused
        · next accepted =>
          split at moved
          · split at moved
            · next same =>
              cases moved
              subst same
              exact .deletes found (not_not.mp accepted)
            · next other =>
              cases moved
              exact .ends true found fun d => timely_responded found fun same => absurd same other
          · next read =>
            cases moved
            refine .responds found fun d => timely_responded found fun same => ?_
            rw [show operation = .deleteAccount from same] at read
            cases read rfl
  | reading | awaiting => cases moved

theorem moves_read {body : Option Body} (found : c.tasks.lookup id = some task)
    (moved : c.read id body task = some c') : Moves c (.read id body) c' := by
  obtain ⟨operation, stage⟩ := task
  cases stage with
  | reading =>
    cases body with
    | none =>
      cases moved
      exact .ends false found fun d => rfl
    | some body =>
      obtain ⟨issued, same⟩ := Option.ite_none_right_eq_some.mp moved
      cases same
      exact .takes found issued
  | fetching | awaiting => cases body <;> cases moved

theorem moves_resumed (found : c.tasks.lookup id = some task)
    (moved : c.resumed id task = some c') : Moves c (.resumed id) c' := by
  obtain ⟨operation, stage⟩ := task
  cases stage with
  | awaiting refresh =>
    obtain ⟨resolved, -, rfl⟩ := Option.map_eq_some_iff.mp moved
    cases resolved with
    | true => exact .retries found fun d => rfl
    | false => exact .ends false found fun d => rfl
  | fetching | reading => cases moved

theorem moves_of_step (moved : c.step a = some c') : Moves c a c' := by
  cases a with
  | setToken =>
    cases moved
    exact .sets
  | setTokens =>
    cases moved
    exact .setsBoth
  | ensureAccess now =>
    cases moved
    unfold Client.ensureAccess
    split
    · exact .rests fun d => rfl
    · exact .refreshes fun d => rfl
  | refresh =>
    cases moved
    exact .refreshes fun d => rfl
  | call operation =>
    obtain ⟨other, same⟩ := Option.ite_none_left_eq_some.mp moved
    cases same
    exact .begins (by simpa using other)
  | responded =>
    obtain ⟨task, found, moved⟩ := Option.bind_eq_some_iff.mp moved
    exact moves_responded found moved
  | read =>
    obtain ⟨task, found, moved⟩ := Option.bind_eq_some_iff.mp moved
    exact moves_read found moved
  | resumed =>
    obtain ⟨task, found, moved⟩ := Option.bind_eq_some_iff.mp moved
    exact moves_resumed found moved

/-! ## Requests in flight -/

/-- How many fetches a call may have made by now. -/
def Stage.fetches : Stage → Nat
  | .fetching false | .awaiting _ => 1
  | .fetching true | .reading => 2

/-- The calls have numbers of their own; a refresh under way is the one that calls wait for;
and a call has fetched no more often than its stage says. -/
structure Flying (c : Client) : Prop where
  numbered : ∀ id task, c.tasks.lookup id = some task → id < c.calls
  single : ∀ id task, c.tasks.lookup id = some task → task.operation.isRefresh →
    c.refreshing = some id
  once : ∀ id task, c.tasks.lookup id = some task →
    c.fetches.countP (·.call = id) ≤ Stage.fetches task.stage
  twice : ∀ id, c.fetches.countP (·.call = id) ≤ 2
  fresh : ∀ id, c.calls ≤ id → c.fetches.countP (·.call = id) = 0

theorem fetches_le_two (stage : Stage) : Stage.fetches stage ≤ 2 := by
  unfold Stage.fetches
  split <;> omega

/-- A call goes on to a stage that allows for the fetches it has made. -/
theorem Flying.goes (flying : Flying c) {operation : Operation} {stage stage' : Stage}
    (found : c.tasks.lookup id = some ⟨operation, stage⟩)
    (more : Stage.fetches stage ≤ Stage.fetches stage') :
    Flying (c.proceeds id operation stage') := by
  have known {id' : Nat} {task : Task}
      (found' : (c.tasks.insert id ⟨operation, stage'⟩).lookup id' = some task) :
      ∃ task', c.tasks.lookup id' = some task' ∧ task.operation = task'.operation ∧
        Stage.fetches task'.stage ≤ Stage.fetches task.stage := by
    rw [FinMap.lookup_insert_apply] at found'
    split at found'
    · next same =>
      cases found'
      exact ⟨⟨operation, stage⟩, same ▸ found, rfl, more⟩
    · exact ⟨task, found', rfl, Nat.le_refl _⟩
  refine ⟨?_, ?_, ?_, flying.twice, flying.fresh⟩
  · intro id' task found'
    obtain ⟨task', before, -⟩ := known found'
    exact flying.numbered id' task' before
  · intro id' task found' refreshes
    obtain ⟨task', before, same, -⟩ := known found'
    exact flying.single id' task' before (same ▸ refreshes)
  · intro id' task found'
    obtain ⟨task', before, -, fewer⟩ := known found'
    exact Nat.le_trans (flying.once id' task' before) fewer

theorem countP_sends (c : Client) (id : Nat) (operation : Operation) (retried : Bool) (id' : Nat) :
    (c.sends id operation retried).fetches.countP (·.call = id') =
      c.fetches.countP (·.call = id') + if id = id' then 1 else 0 := by
  change (c.fetches ++ [_]).countP _ = _
  rw [List.countP_append, List.countP_singleton]
  simp only [decide_eq_true_eq]

/-- A call that waited for a refresh fetches once more. -/
theorem Flying.retries (flying : Flying c) {operation : Operation} {refresh : Nat}
    (found : c.tasks.lookup id = some ⟨operation, .awaiting refresh⟩) :
    Flying (c.sends id operation true) := by
  have more : Stage.fetches (.awaiting refresh) ≤ Stage.fetches (.fetching true) := by
    simp [Stage.fetches]
  have goes := flying.goes found more
  have before := flying.once id _ found
  have counted (id' : Nat) : (c.sends id operation true).fetches.countP (·.call = id') ≤
      if id = id' then 2 else c.fetches.countP (·.call = id') := by
    rw [countP_sends]
    split
    · next same =>
      subst same
      simpa [Stage.fetches] using before
    · exact Nat.le_refl _
  refine ⟨goes.numbered, goes.single, fun id' task found' => ?_, fun id' => ?_, fun id' above => ?_⟩
  · have bound := counted id'
    split at bound
    · next same =>
      subst same
      have here : (c.tasks.insert id ⟨operation, .fetching true⟩).lookup id = some task := found'
      rw [FinMap.lookup_insert_apply, if_pos rfl] at here
      cases here
      exact bound
    · exact Nat.le_trans bound (goes.once id' task found')
  · have bound := counted id'
    have twice := flying.twice id'
    split at bound <;> omega
  · have low := flying.numbered id _ found
    have above : c.calls ≤ id' := above
    rw [countP_sends, if_neg (by omega), flying.fresh id' above]

/-- A method is called; whoever refreshes is noted. -/
theorem Flying.begins (flying : Flying c) {operation : Operation} {refreshing : Option Nat}
    (kept : ∀ id task, c.tasks.lookup id = some task → task.operation.isRefresh →
      refreshing = some id)
    (noted : operation.isRefresh → refreshing = some c.calls) :
    Flying { c.begins operation with refreshing } := by
  have known {id : Nat} {task : Task}
      (found : (c.tasks.insert c.calls ⟨operation, .fetching false⟩).lookup id = some task) :
      id = c.calls ∧ task = ⟨operation, .fetching false⟩ ∨
        id < c.calls ∧ c.tasks.lookup id = some task := by
    rw [FinMap.lookup_insert_apply] at found
    split at found
    · next same =>
      cases found
      exact .inl ⟨same, rfl⟩
    · exact .inr ⟨flying.numbered id task found, found⟩
  have counted (id : Nat) : (c.begins operation).fetches.countP (·.call = id) =
      c.fetches.countP (·.call = id) + if c.calls = id then 1 else 0 :=
    countP_sends c c.calls operation false id
  have none_yet := flying.fresh c.calls (Nat.le_refl _)
  refine ⟨fun id task found => ?_, fun id task found refreshes => ?_, fun id task found => ?_,
    fun id => ?_, fun id above => ?_⟩
  · change id < c.calls + 1
    rcases known found with ⟨rfl, -⟩ | ⟨low, -⟩ <;> omega
  · rcases known found with ⟨rfl, rfl⟩ | ⟨-, before⟩
    · exact noted refreshes
    · exact kept id task before refreshes
  · change (c.begins operation).fetches.countP _ ≤ _
    rw [counted]
    rcases known found with ⟨rfl, rfl⟩ | ⟨low, before⟩
    · simp [none_yet, Stage.fetches]
    · rw [if_neg (by omega)]
      exact flying.once id task before
  · change (c.begins operation).fetches.countP _ ≤ _
    rw [counted]
    have twice := flying.twice id
    split
    · next same =>
      subst same
      omega
    · exact twice
  · have above : c.calls + 1 ≤ id := above
    change (c.begins operation).fetches.countP _ = _
    rw [counted, if_neg (by omega), flying.fresh id (by omega)]

theorem Flying.refresh (flying : Flying c) : Flying c.refresh := by
  unfold Client.refresh
  split
  · next idle =>
    refine flying.begins (fun id task found refreshes => ?_) fun _ => rfl
    rw [flying.single id task found refreshes] at idle
    cases idle
  · exact flying

/-- A call ends; if it refreshed, no other one did. -/
theorem Flying.ends (flying : Flying c) (found : c.tasks.lookup id = some task)
    (resolved : Bool) : Flying (c.ends id task.operation resolved) := by
  have known {id' : Nat} {task' : Task} (found' : (c.tasks.erase id).lookup id' = some task') :
      id' ≠ id ∧ c.tasks.lookup id' = some task' := by
    rw [FinMap.lookup_erase_apply] at found'
    exact Option.ite_none_left_eq_some.mp found'
  unfold Client.ends
  split
  · next same =>
    refine ⟨fun id' task' found' => flying.numbered id' task' (known found').2,
      fun id' task' found' refreshes => ?_,
      fun id' task' found' => flying.once id' task' (known found').2, flying.twice, flying.fresh⟩
    have first := flying.single id task found (by rw [same]; rfl)
    have second := flying.single id' task' (known found').2 refreshes
    rw [first] at second
    exact absurd (Option.some.inj second).symm (known found').1
  · exact ⟨fun id' task' found' => flying.numbered id' task' (known found').2,
      fun id' task' found' => flying.single id' task' (known found').2,
      fun id' task' found' => flying.once id' task' (known found').2, flying.twice, flying.fresh⟩

/-- The tokens are of no consequence for it. -/
theorem Flying.of_eq (flying : Flying c) (tasks : c'.tasks = c.tasks) (calls : c'.calls = c.calls)
    (refreshing : c'.refreshing = c.refreshing) (fetches : c'.fetches = c.fetches) : Flying c' := by
  refine ⟨?_, ?_, ?_, ?_, ?_⟩
  · rw [tasks, calls]
    exact flying.numbered
  · rw [tasks, refreshing]
    exact flying.single
  · rw [tasks, fetches]
    exact flying.once
  · rw [fetches]
    exact flying.twice
  · rw [calls, fetches]
    exact flying.fresh

/-- Taking tokens concerns no call. -/
theorem takes_calls (c : Client) (operation : Operation) (body : Body) :
    (c.takes operation body).1.tasks = c.tasks ∧ (c.takes operation body).1.calls = c.calls ∧
      (c.takes operation body).1.refreshing = c.refreshing ∧
      (c.takes operation body).1.fetches = c.fetches := by
  unfold Client.takes
  split
  · exact ⟨rfl, rfl, rfl, rfl⟩
  · split
    · split <;> exact ⟨rfl, rfl, rfl, rfl⟩
    · exact ⟨rfl, rfl, rfl, rfl⟩
  · split <;> exact ⟨rfl, rfl, rfl, rfl⟩
  · exact ⟨rfl, rfl, rfl, rfl⟩

theorem lookup_refresh (flying : Flying c) (found : c.tasks.lookup id = some task) :
    c.refresh.tasks.lookup id = some task := by
  unfold Client.refresh
  split
  · have low := flying.numbered id task found
    change (c.tasks.insert c.calls _).lookup id = some task
    rw [FinMap.lookup_insert_apply, if_neg (by omega), found]
  · exact found

theorem step_flying (flying : Flying c) (moved : c.step a = some c') : Flying c' := by
  cases moves_of_step moved with
  | sets | setsBoth => exact flying.of_eq rfl rfl rfl rfl
  | rests => exact flying
  | refreshes => exact flying.refresh
  | begins other =>
    exact flying.begins flying.single fun refreshes => by rw [other] at refreshes; cases refreshes
  | awaits found =>
    exact flying.refresh.goes (lookup_refresh flying found) (by simp [Stage.fetches])
  | responds found => exact flying.goes found (fetches_le_two _)
  | deletes found => exact (flying.ends found true).of_eq rfl rfl rfl rfl
  | ends resolved found => exact flying.ends found resolved
  | @takes id operation body found =>
    obtain ⟨tasks, calls, refreshing, fetches⟩ := takes_calls c operation body
    have taken : Flying (c.takes operation body).1 := flying.of_eq tasks calls refreshing fetches
    have found' : (c.takes operation body).1.tasks.lookup id = some ⟨operation, .reading⟩ := by
      rw [tasks, found]
    exact taken.ends found' _
  | retries found => exact flying.retries found

theorem started_flying (started : discovery.start c) : Flying c := by
  subst started
  exact ⟨fun id task found => by simp [AList.lookup_empty] at found,
    fun id task found => by simp [AList.lookup_empty] at found,
    fun id task found => by simp [AList.lookup_empty] at found, fun id => by simp, fun id _ => rfl⟩

theorem reachable_flying (reachable : discovery.Reachable c) : Flying c :=
  reachable.invariant Flying (fun _ => started_flying)
    fun _ _ _ flying _ moved => step_flying flying moved

theorem Flying.atMostOneRefresh (flying : Flying c) : AtMostOneRefresh c := by
  intro id task id' task' found found' refreshes refreshes'
  have first := flying.single id task found refreshes
  rw [flying.single id' task' found' refreshes'] at first
  exact (Option.some.inj first).symm

/-! ## The tokens -/

/-- A client that holds the same tokens of the same installation. -/
theorem consistent_of_eq (token : c'.token = c.token) (refresh : c'.refresh_ = c.refresh_)
    (installed : c'.installed = c.installed) : Consistent deletions c' ↔ Consistent deletions c := by
  rw [Consistent, Consistent, user, user, token, refresh, installed]

theorem consistent_ends (operation : Operation) (resolved : Bool) :
    Consistent deletions (c.ends id operation resolved) ↔ Consistent deletions c := by
  unfold Client.ends
  split <;> exact consistent_of_eq rfl rfl rfl

theorem consistent_refresh : Consistent deletions c.refresh ↔ Consistent deletions c := by
  unfold Client.refresh
  split
  · exact consistent_of_eq rfl rfl rfl
  · exact Iff.rfl

/-- After an installation the tokens have to be of the one it is for. -/
theorem consistent_installed {uid : String} (installed : c'.installed = some uid :: c.installed) :
    Consistent deletions c' ↔ (∀ t, c'.token = some t → t.uid = uid) ∧
      ∀ t, c'.refresh_ = some t → t.uid = uid := by
  have whose : user deletions c' = some uid := by
    unfold user
    rw [installed]
    cases deletions <;> rfl
  rw [Consistent, whose]
  constructor
  · intro consistent
    exact ⟨fun t held => (Option.some.inj (consistent t (.inl held))).symm,
      fun t held => (Option.some.inj (consistent t (.inr held))).symm⟩
  · rintro ⟨access, refresh⟩ t (held | held)
    · rw [access t held]
    · rw [refresh t held]

/-- Where deletions count, nothing may be held after one. -/
theorem deletes_consistent {status : Nat} {retried : Bool} (consistent : Consistent deletions c)
    (found : c.tasks.lookup id = some ⟨.deleteAccount, .fetching retried⟩)
    (accepted : 200 ≤ status ∧ status < 300) :
    Consistent deletions { c.ends id .deleteAccount true with
        token := none, installed := none :: c.installed } ↔
      Timely deletions c (.responded id (some status)) = true := by
  simp only [Timely, found]
  cases deletions with
  | false =>
    refine iff_of_true (fun t held => ?_) rfl
    rcases held with access | refresh
    · cases access
    · exact consistent t (.inr refresh)
  | true =>
    simp only [accepted]
    constructor
    · intro after
      cases refresh : c.refresh_ with
      | none => rfl
      | some t => cases after t (.inr refresh)
    · intro empty t held
      have absent : c.refresh_ = none := by simpa using empty
      rcases held with access | refresh
      · cases access
      · rw [show c.refresh_ = some t from refresh] at absent
        cases absent

theorem all_uid {held : Option Token} {uid : String} :
    held.all (·.uid = uid) = true ↔ ∀ t, held = some t → t.uid = uid := by
  cases held <;> simp

/-- The answer to a refresh has to be for the user whose credentials were installed last. -/
theorem refresh_consistent {sent : Token} {body : Body} (consistent : Consistent deletions c)
    (issued : (Operation.refresh sent).issues body) :
    Consistent deletions (c.takes (.refresh sent) body).1 ↔
      user deletions c = some sent.uid := by
  obtain ⟨access, rotated⟩ := Bool.and_eq_true_iff.mp issued
  cases given : body.token with
  | none =>
    rw [given] at access
    cases access
  | some token =>
    have same : token.uid = sent.uid := by simpa [given] using access
    constructor
    · intro after
      rw [← same]
      exact after token (.inl given)
    · intro whose t held
      change user deletions c = some t.uid
      rcases held with held | held
      · have t_given : body.token = some t := held
        rw [given] at t_given
        cases t_given
        rw [whose, same]
      · have either : (body.refreshToken <|> c.refresh_) = some t := held
        cases fresh : body.refreshToken with
        | some t' =>
          rw [fresh] at either
          cases either
          rw [whose, all_uid.mp rotated t fresh]
        | none =>
          rw [fresh] at either
          exact consistent t (.inr either)

/-- What a sign-in installs is of one user. -/
theorem installs_consistent {token : Token} {refreshToken : Option Token}
    (same : refreshToken.all (·.uid = token.uid) = true) :
    Consistent deletions (c.installs token refreshToken) := by
  rw [consistent_installed rfl]
  refine ⟨fun t held => ?_, all_uid.mp same⟩
  cases held
  rfl

theorem takes_consistent {operation : Operation} {body : Body} (consistent : Consistent deletions c)
    (found : c.tasks.lookup id = some ⟨operation, .reading⟩) (issued : operation.issues body) :
    Consistent deletions (c.takes operation body).1 ↔
      Timely deletions c (.read id (some body)) = true := by
  simp only [Timely, found]
  cases operation with
  | refresh sent =>
    simp only [decide_eq_true_eq]
    exact refresh_consistent consistent issued
  | submitOtp userId =>
    refine iff_of_true ?_ rfl
    obtain ⟨access, rotated⟩ := Bool.and_eq_true_iff.mp issued
    unfold Client.takes
    cases given : body.token with
    | none => exact consistent
    | some token =>
      rw [given] at access
      have whose : token.uid = userId := by simpa using access
      dsimp only
      split
      · exact installs_consistent (whose ▸ rotated)
      · exact consistent
  | linkDevice =>
    refine iff_of_true ?_ rfl
    unfold Operation.issues at issued
    unfold Client.takes
    cases given : body.token with
    | none => exact consistent
    | some token =>
      rw [given] at issued
      exact installs_consistent issued
  | _ => exact iff_of_true consistent rfl

/-- A step leaves the tokens consistent exactly if it is timely. -/
theorem step_consistent (consistent : Consistent deletions c) (moved : c.step a = some c') :
    Consistent deletions c' ↔ Timely deletions c a = true := by
  cases moves_of_step moved with
  | sets =>
    rw [consistent_installed rfl]
    simpa [Timely, Client.setToken] using all_uid.symm
  | setsBoth =>
    rw [consistent_installed rfl]
    simp [Timely, Client.setTokens, eq_comm]
  | rests quiet => exact iff_of_true consistent (quiet _)
  | refreshes quiet => exact iff_of_true (consistent_refresh.mpr consistent) (quiet _)
  | begins => exact iff_of_true ((consistent_of_eq rfl rfl rfl).mpr consistent) rfl
  | awaits found quiet =>
    exact iff_of_true ((consistent_of_eq rfl rfl rfl).mpr (consistent_refresh.mpr consistent))
      (quiet _)
  | responds found quiet | retries found quiet =>
    exact iff_of_true ((consistent_of_eq rfl rfl rfl).mpr consistent) (quiet _)
  | deletes found accepted => exact deletes_consistent consistent found accepted
  | ends resolved found quiet =>
    exact iff_of_true ((consistent_ends ..).mpr consistent) (quiet _)
  | takes found issued => exact (consistent_ends ..).trans (takes_consistent consistent found issued)

theorem started_consistent (started : discovery.start c) : Consistent deletions c := by
  subst started
  rintro t (held | held) <;> cases held

/-- **Credentials stay together.** In every run at most one refresh is in flight, and no call
fetches more than twice.  The tokens held are at all times of the user whose credentials were
installed last exactly in the runs whose every step is timely, whether or not deleting the
account counts as installing nobody's. -/
theorem credentials_stay_together (deletions : Bool) (c : Client) :
    (discovery.Reachable c → AtMostOneRefresh c ∧ AtMostTwoFetches c) ∧
    (discovery.Reached (fun c a => Timely deletions c a = true) c ↔
      discovery.Throughout (Consistent deletions) c) := by
  constructor
  · intro reachable
    have flying := reachable_flying reachable
    exact ⟨flying.atMostOneRefresh, flying.twice⟩
  · exact Machine.reached_iff_throughout (fun _ => started_consistent)
      fun _ _ _ _ consistent moved => step_consistent consistent moved

/-- Alice's access token has expired; it is refreshed, and the call is made again. -/
def staleToken : List Action :=
  [ .setTokens ⟨"alice", some 0⟩ ⟨"alice", some 1000⟩, .call .poolSize, .responded 0 (some 401),
    .responded 1 (some 200),
    .read 1 (some { token := some ⟨"alice", some 900⟩, refreshToken := some ⟨"alice", some 2000⟩ }),
    .resumed 0, .responded 0 (some 200), .read 0 (some {}) ]

theorem stale_token_is_refreshed : ∃ c, c.token = some ⟨"alice", some 900⟩ ∧
    c.fetches.countP (·.call = 0) = 2 ∧ Consistent true c ∧ AtMostOneRefresh c ∧
    AtMostTwoFetches c := by
  have observed : (discovery.checkedRun (fun c a => Timely true c a = true) {} staleToken).map
      (fun c => (c.token, c.fetches.countP (·.call = 0))) =
        some (some ⟨"alice", some 900⟩, 2) := by decide +kernel
  obtain ⟨c, reached, seen⟩ := Machine.reached_of_observed observed (.start rfl)
  obtain ⟨token, fetched⟩ := Prod.mk.inj seen
  obtain ⟨requests, tokens⟩ := credentials_stay_together true c
  exact ⟨c, token, fetched, (tokens.mp reached).holds fun _ => started_consistent,
    requests reached.reachable⟩

/-- Alice's access token is refreshed while bob signs in. -/
def signInMeanwhile : List Action :=
  [ .setTokens ⟨"alice", some 0⟩ ⟨"alice", some 1000⟩, .ensureAccess 0,
    .call (.submitOtp "bob"), .responded 1 (some 200),
    .read 1 (some { token := some ⟨"bob", some 900⟩, refreshToken := some ⟨"bob", some 2000⟩ }),
    .responded 0 (some 200),
    .read 0 (some { token := some ⟨"alice", some 900⟩, refreshToken := some ⟨"alice", some 2000⟩ }) ]

/-- Bob has signed in last, and the tokens are alice's. -/
theorem late_refresh_overwrites : ∃ c, discovery.Reachable c ∧
    c.installed = [some "bob", some "alice"] ∧
    c.token = some ⟨"alice", some 900⟩ ∧ c.refresh_ = some ⟨"alice", some 2000⟩ ∧
    ∀ deletions, ¬ Consistent deletions c := by
  have observed : (discovery.run {} signInMeanwhile).map
      (fun c => (c.installed, c.token, c.refresh_)) =
        some ([some "bob", some "alice"], some ⟨"alice", some 900⟩, some ⟨"alice", some 2000⟩) := by
    decide +kernel
  obtain ⟨c, reachable, seen⟩ := Machine.reachable_of_observed observed rfl
  obtain ⟨installed, seen⟩ := Prod.mk.inj seen
  obtain ⟨token, refresh⟩ := Prod.mk.inj seen
  refine ⟨c, reachable, installed, token, refresh,
    fun deletions consistent => ?_⟩
  have whose := consistent _ (.inl token)
  rw [user, installed] at whose
  cases deletions <;> exact absurd whose (by decide)

end Hwfa.DiscoveryClientTokens
