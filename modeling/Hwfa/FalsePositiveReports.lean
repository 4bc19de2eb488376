import Hwfa.ClientHashing
import Hwfa.ConversationStore
import Hwfa.Machines
import Mathlib.Data.List.Perm.Basic

/-!
Reports of wrong warnings (`packages/client/src/scam/reports.ts`), over a sink that loads
and saves a copy of the list some time after it was asked to.

Every call waits for `ensureLoaded` and then, unless it only counts, changes the pending
list and waits until that is saved.  The flag that says that the list is loaded is set when
a load ends, so calls that begin before then load for themselves.
-/

namespace Hwfa.FalsePositiveReports

open Hwfa.Json Hwfa.Maps Hwfa.Machines Hwfa.ConversationStore Hwfa.ClientHashing

structure FalsePositiveReport where
  textHash : Text
  verdict : ScamVerdict
  reportedAt : Nat
  deriving DecidableEq

/-- `hashText`, unless the text is longer than a typed array can be. -/
def hashText (text : Text) : Option Text := (sha256 (utf8Encode text)).map bytesToBase64

inductive Call where
  | report (text : Text) (verdict : ScamVerdict)
  | pendingCount
  | flush
  | restore (batch : List FalsePositiveReport)

/-- Where a call waits. -/
inductive Stage where
  /-- for the sink to read the list -/
  | loading
  /-- for `load` to return what was read -/
  | loaded (reports : List FalsePositiveReport)
  /-- for `ensureLoaded` to return -/
  | ready
  /-- for the sink to write the list it was given; the saves are numbered as they are called,
  and `flush` will return the batch -/
  | saving (number : Nat) (reports : List FalsePositiveReport)
      (batch : Option (List FalsePositiveReport))
  /-- for `save` to return -/
  | saved (batch : Option (List FalsePositiveReport))
  deriving DecidableEq

structure Task where
  call : Call
  stage : Stage

/-- The reporter and its sink; the batches that `flush` returned and nobody has put back
yet; and, for the specification only, all reports there ever were, and the numbers of the
save called last and of the one written last. -/
structure Reporter where
  pending : List FalsePositiveReport := []
  loaded : Bool := false
  tasks : FinMap Nat Task := ∅
  sink : List FalsePositiveReport
  batches : List (List FalsePositiveReport) := []
  recorded : List FalsePositiveReport
  called : Nat := 0
  written : Nat := 0

inductive Action where
  | report (id : Nat) (text : Text) (verdict : ScamVerdict)
  | pendingCount (id : Nat)
  | flush (id : Nat)
  /-- of one of the batches that were returned -/
  | restore (id i : Nat)
  | read (id : Nat)
  | assign (id : Nat)
  | proceed (id now : Nat)
  | write (id : Nat)
  | resolve (id : Nat)

namespace Reporter

/-- A call up to its first `await`. -/
def invoke (r : Reporter) (id : Nat) (call : Call) : Option Reporter :=
  if r.tasks.lookup id = none then
    let stage := if r.loaded then .ready else .loading
    some { r with tasks := r.tasks.insert id { call, stage } }
  else none

def advance (r : Reporter) (id : Nat) (task : Task) (stage : Stage) : Reporter :=
  { r with tasks := r.tasks.insert id { task with stage } }

/-- `await this.sink.save(this.pending)`, up to there. -/
def save (r : Reporter) (id : Nat) (task : Task) (batch : Option (List FalsePositiveReport)) :
    Reporter :=
  { r with called := r.called + 1 }.advance id task (.saving (r.called + 1) r.pending batch)

/-- What a call does once the list is loaded. -/
def proceed (r : Reporter) (id : Nat) (task : Task) (now : Nat) : Reporter :=
  match task.call with
  | .report text verdict =>
    match hashText text with
    | some textHash =>
      let entry := { textHash, verdict, reportedAt := now }
      { r with pending := r.pending ++ [entry], recorded := r.recorded ++ [entry] }.save id task
        none
    | none => { r with tasks := r.tasks.erase id }
  | .pendingCount => { r with tasks := r.tasks.erase id }
  | .flush => { r with pending := [] }.save id task (some r.pending)
  | .restore batch => { r with pending := batch ++ r.pending }.save id task none

end Reporter

def machine : Machine Reporter Action where
  start r := r = { sink := r.sink, recorded := r.sink }
  step r a :=
    match a with
    | .report id text verdict => r.invoke id (.report text verdict)
    | .pendingCount id => r.invoke id .pendingCount
    | .flush id => r.invoke id .flush
    | .restore id i => r.batches[i]?.bind fun batch =>
        { r with batches := r.batches.eraseIdx i }.invoke id (.restore batch)
    | .read id => (r.tasks.lookup id).bind fun task =>
        if task.stage = .loading then some (r.advance id task (.loaded r.sink)) else none
    | .assign id => (r.tasks.lookup id).bind fun task =>
        match task.stage with
        | .loaded reports =>
          some ({ r with pending := reports, loaded := true }.advance id task .ready)
        | _ => none
    | .proceed id now => (r.tasks.lookup id).bind fun task =>
        if task.stage = .ready then some (r.proceed id task now) else none
    | .write id => (r.tasks.lookup id).bind fun task =>
        match task.stage with
        | .saving number reports batch =>
          some ({ r with sink := reports, written := number }.advance id task (.saved batch))
        | _ => none
    | .resolve id => (r.tasks.lookup id).bind fun task =>
        match task.stage with
        | .saved none => some { r with tasks := r.tasks.erase id }
        | .saved (some batch) =>
          some { r with tasks := r.tasks.erase id, batches := batch :: r.batches }
        | _ => none

/-! ### What should hold -/

/-- No call is under way. -/
def Quiescent (r : Reporter) : Prop := r.tasks.entries = []

/-- The reports that the next call finds pending: before the first one they are in the
sink. -/
def queue (r : Reporter) : List FalsePositiveReport := if r.loaded then r.pending else r.sink

/-- The reports that `flush` returned and nobody has put back. -/
def returned (r : Reporter) : List FalsePositiveReport := r.batches.flatten

/-- Every report is pending or in a batch that is not put back, once, and the sink has the
pending ones. -/
structure Conserved (r : Reporter) : Prop where
  once : (queue r ++ returned r).Perm r.recorded
  stored : r.sink = queue r

/-- A load ends only while nothing is loaded, or with what is pending; and a save is
written only before those called later. -/
def Orderly (r : Reporter) (a : Action) : Prop :=
  match a with
  | .assign id =>
    match r.tasks.lookup id with
    | some ⟨_, .loaded reports⟩ => r.loaded = false ∨ r.pending = reports
    | _ => True
  | .write id =>
    match r.tasks.lookup id with
    | some ⟨_, .saving number _ _⟩ => r.written < number
    | _ => True
  | _ => True

instance (r : Reporter) (a : Action) : Decidable (Orderly r a) := by
  unfold Orderly
  split
  · split <;> infer_instance
  · split <;> infer_instance
  · infer_instance

variable {r r' : Reporter} {id number : Nat} {task task' : Task} {e : FalsePositiveReport}
variable {reports : List FalsePositiveReport} {batch : Option (List FalsePositiveReport)}

/-! ### What the sink has -/

/-- Before the list is loaded nothing but loading goes on; afterwards the sink has the
pending reports, or a save that was called last will bring them. -/
structure Synced (r : Reporter) : Prop where
  unloaded : r.loaded = false → r.called = r.written ∧ ∀ id task, r.tasks.lookup id = some task →
    task.stage = .loading ∨ task.stage = .loaded r.sink
  numbered : ∀ id task number reports batch, r.tasks.lookup id = some task →
    task.stage = .saving number reports batch →
      number ≤ r.called ∧ (number = r.called → reports = r.pending)
  stored : r.loaded = true → (r.written = r.called ∧ r.sink = r.pending) ∨
    ∃ id task batch, r.tasks.lookup id = some task ∧ task.stage = .saving r.called r.pending batch

/-- What a call may wait for that did not yet change the list. -/
def Waiting (r : Reporter) (stage : Stage) : Prop :=
  (r.loaded = false → stage = .loading ∨ stage = .loaded r.sink) ∧
    ∀ number reports batch, stage ≠ .saving number reports batch

/-- Calls that begin, wait and end while no save is called or written. -/
theorem Synced.frame (synced : Synced r) (tasks : FinMap Nat Task)
    (old : ∀ id task, tasks.lookup id = some task →
      r.tasks.lookup id = some task ∨ Waiting r task.stage)
    (saves : ∀ id task batch, r.tasks.lookup id = some task →
      task.stage = .saving r.called r.pending batch → tasks.lookup id = some task)
    (batches : List (List FalsePositiveReport)) : Synced { r with tasks, batches } where
  unloaded := by
    intro unloaded
    obtain ⟨none_called, loading⟩ := synced.unloaded unloaded
    refine ⟨none_called, fun id task found => ?_⟩
    rcases old id task found with before | waiting
    · exact loading id task before
    · exact waiting.1 unloaded
  numbered := by
    intro id task number reports batch found saving
    rcases old id task found with before | waiting
    · exact synced.numbered id task number reports batch before saving
    · exact absurd saving (waiting.2 number reports batch)
  stored := by
    intro loaded
    rcases synced.stored loaded with same | ⟨id, task, batch, found, saving⟩
    · exact .inl same
    · exact .inr ⟨id, task, batch, saves id task batch found saving, saving⟩

/-- A call goes on to wait for something else. -/
theorem Synced.insert (synced : Synced r) {task : Task} (waiting : Waiting r task.stage)
    (id : Nat) (idle : ∀ before, r.tasks.lookup id = some before →
      ∀ batch, before.stage ≠ .saving r.called r.pending batch)
    (batches : List (List FalsePositiveReport)) :
    Synced { r with tasks := r.tasks.insert id task, batches } := by
  apply synced.frame
  · intro id' task' found
    rw [FinMap.lookup_insert_apply] at found
    split at found
    · cases found
      exact .inr waiting
    · exact .inl found
  · intro id' task' batch found saving
    rw [FinMap.lookup_insert_apply, if_neg]
    · exact found
    · rintro rfl
      exact idle task' found batch saving

/-- A call ends. -/
theorem Synced.erase (synced : Synced r) {id : Nat} {task : Task}
    (found : r.tasks.lookup id = some task)
    (idle : ∀ number reports batch, task.stage ≠ .saving number reports batch)
    (batches : List (List FalsePositiveReport)) :
    Synced { r with tasks := r.tasks.erase id, batches } := by
  apply synced.frame
  · intro id' task' found'
    rw [FinMap.lookup_erase_apply] at found'
    split at found'
    · cases found'
    · exact .inl found'
  · intro id' task' batch found' saving
    rw [FinMap.lookup_erase_apply, if_neg]
    · exact found'
    · rintro rfl
      cases found.symm.trans found'
      exact idle _ _ batch saving

/-- Whoever waits for more than the load finds the list loaded. -/
theorem Synced.loaded_of_ready (synced : Synced r) (found : r.tasks.lookup id = some task)
    (loading : task.stage ≠ .loading) (read : ∀ reports, task.stage ≠ .loaded reports) :
    r.loaded = true := by
  by_contra unloaded
  rw [Bool.not_eq_true] at unloaded
  rcases (synced.unloaded unloaded).2 id task found with first | second
  · exact loading first
  · exact read _ second

/-- The list is changed, and a save of it called. -/
theorem Synced.save (synced : Synced r) (loaded : r.loaded = true) (task : Task) (id : Nat)
    (pending recorded : List FalsePositiveReport) (batch : Option (List FalsePositiveReport)) :
    Synced ({ r with pending, recorded }.save id task batch) where
  unloaded := by
    intro unloaded
    cases loaded.symm.trans unloaded
  numbered := by
    intro id' task' number reports batch' found saving
    simp only [Reporter.save, Reporter.advance] at found ⊢
    rw [FinMap.lookup_insert_apply] at found
    split at found
    · cases found
      cases saving
      exact ⟨Nat.le_refl _, fun _ => rfl⟩
    · obtain ⟨earlier, -⟩ := synced.numbered id' task' number reports batch' found saving
      exact ⟨by omega, fun same => by omega⟩
  stored := by
    intro _
    refine .inr ⟨id, { task with stage := .saving (r.called + 1) pending batch }, batch, ?_, rfl⟩
    exact AList.lookup_insert _

theorem Synced.assign (synced : Synced r) (found : r.tasks.lookup id = some task)
    (read : task.stage = .loaded reports) (orderly : r.loaded = false ∨ r.pending = reports) :
    Synced ({ r with pending := reports, loaded := true }.advance id task .ready) := by
  by_cases loaded : r.loaded = true
  · have same : r.pending = reports := orderly.resolve_left (by simp [loaded])
    have unchanged : ({ r with pending := reports, loaded := true } : Reporter) = r := by
      rw [← same, ← loaded]
    rw [unchanged]
    apply synced.insert
    · refine ⟨fun unloaded => ?_, fun number reports batch same => by cases same⟩
      cases loaded.symm.trans unloaded
    · intro before found' batch saving
      cases found.symm.trans found'
      cases read.symm.trans saving
  · rw [Bool.not_eq_true] at loaded
    obtain ⟨none_called, loading⟩ := synced.unloaded loaded
    have stored : r.sink = reports := by
      rcases loading id task found with first | second
      · cases read.symm.trans first
      · cases read.symm.trans second
        rfl
    constructor
    · intro unloaded
      cases unloaded
    · intro id' task' number reports' batch found' saving
      simp only [Reporter.advance] at found'
      rw [FinMap.lookup_insert_apply] at found'
      split at found'
      · cases found'
        cases saving
      · rcases loading id' task' found' with first | second
        · cases saving.symm.trans first
        · cases saving.symm.trans second
    · exact fun _ => .inl ⟨none_called.symm, stored⟩

/-- A save takes effect, no later one having done so. -/
theorem Synced.write (synced : Synced r) (found : r.tasks.lookup id = some task)
    (saving : task.stage = .saving number reports batch) (orderly : r.written < number) :
    Synced ({ r with sink := reports, written := number }.advance id task (.saved batch)) := by
  have loaded : r.loaded = true := by
    apply synced.loaded_of_ready found
    · simp [saving]
    · simp [saving]
  obtain ⟨called, newest⟩ := synced.numbered id task number reports batch found saving
  constructor
  · intro unloaded
    cases loaded.symm.trans unloaded
  · intro id' task' number' reports' batch' found' saving'
    simp only [Reporter.advance] at found'
    rw [FinMap.lookup_insert_apply] at found'
    split at found'
    · cases found'
      cases saving'
    · exact synced.numbered id' task' number' reports' batch' found' saving'
  · intro _
    by_cases last : number = r.called
    · exact .inl ⟨last, newest last⟩
    · right
      rcases synced.stored loaded with ⟨all, -⟩ | ⟨id', task', batch', found', saving'⟩
      · omega
      · refine ⟨id', task', batch', ?_, saving'⟩
        simp only [Reporter.advance]
        rw [FinMap.lookup_insert_apply, if_neg]
        · exact found'
        · rintro rfl
          cases found.symm.trans found'
          cases saving.symm.trans saving'
          exact last rfl

/-! ### Where the reports are -/

/-- What a call puts back or will return. -/
def Task.held (task : Task) : List FalsePositiveReport :=
  match task.stage, task.call with
  | .saving _ _ batch, _ => batch.getD []
  | .saved batch, _ => batch.getD []
  | _, .restore batch => batch
  | _, _ => []

def underWay (r : Reporter) : List FalsePositiveReport := r.tasks.values.flatMap Task.held

/-- In how many places a report is. -/
def places (r : Reporter) (e : FalsePositiveReport) : Nat :=
  (queue r).count e + (returned r).count e + (underWay r).count e

/-- Every report is in one place, and the sink follows. -/
structure Kept (r : Reporter) : Prop extends Synced r where
  once : ∀ e, places r e = r.recorded.count e

theorem Kept.conserved (kept : Kept r) (quiescent : Quiescent r) : Conserved r := by
  have no_tasks : r.tasks = ∅ := AList.ext quiescent
  constructor
  · apply List.perm_iff_count.mpr
    intro e
    have held : (underWay r).count e = 0 := by
      rw [underWay, no_tasks]
      rfl
    have placed := kept.once e
    unfold places at placed
    rw [List.count_append]
    omega
  · unfold queue
    split
    · next loaded =>
      rcases kept.stored loaded with ⟨-, same⟩ | ⟨id, task, batch, found, -⟩
      · exact same
      · rw [no_tasks] at found
        cases found
    · rfl

theorem underWay_insert (found : r.tasks.lookup id = some task) (task' : Task)
    (e : FalsePositiveReport) :
    ((FinMap.values (r.tasks.insert id task')).flatMap Task.held).count e + task.held.count e =
      (underWay r).count e + task'.held.count e :=
  FinMap.count_values_insert found e

theorem underWay_erase (found : r.tasks.lookup id = some task) (e : FalsePositiveReport) :
    (underWay r).count e = task.held.count e +
      ((FinMap.values (r.tasks.erase id)).flatMap Task.held).count e :=
  FinMap.count_values found e

/-- A call goes on with what it had. -/
theorem underWay_advance (found : r.tasks.lookup id = some task) (stage : Stage)
    (same : Task.held { task with stage } = task.held) (e : FalsePositiveReport) :
    (underWay (r.advance id task stage)).count e = (underWay r).count e := by
  have changed := underWay_insert found { task with stage } e
  rw [same] at changed
  exact Nat.add_right_cancel changed

/-- A call begins, with a batch that is nowhere else. -/
theorem Kept.invoke {call : Call} (synced : Synced r) (apart : ∀ e, places r e +
      (Task.held ⟨call, if r.loaded then .ready else .loading⟩).count e = r.recorded.count e)
    (invoked : r.invoke id call = some r') : Kept r' := by
  obtain ⟨fresh, same⟩ := Option.ite_none_right_eq_some.mp invoked
  cases same
  constructor
  · apply synced.insert
    · constructor
      · intro unloaded
        simp [unloaded]
      · intro number reports batch saving
        dsimp only at saving
        split at saving <;> cases saving
    · intro before found
      rw [fresh] at found
      cases found
  · intro e
    have added : ((FinMap.values (r.tasks.insert id
        ⟨call, if r.loaded then .ready else .loading⟩)).flatMap Task.held).count e =
        (Task.held ⟨call, if r.loaded then .ready else .loading⟩).count e + (underWay r).count e :=
      FinMap.count_values_insert_new fresh e
    calc (queue r).count e + (returned r).count e + _
      _ = (queue r).count e + (returned r).count e + _ := congrArg _ added
      _ = places r e + _ := by
        unfold places
        omega
      _ = r.recorded.count e := apart e

theorem held_of_call (call : Call) (loaded : Bool) :
    Task.held ⟨call, if loaded then .ready else .loading⟩ =
      match call with
      | .restore batch => batch
      | _ => [] := by
  cases loaded <;> cases call <;> rfl

theorem Kept.restore {i : Nat} (kept : Kept r) {batch : List FalsePositiveReport}
    (out : r.batches[i]? = some batch)
    (invoked : { r with batches := r.batches.eraseIdx i }.invoke id (.restore batch) = some r') :
    Kept r' := by
  apply Kept.invoke _ _ invoked
  · apply kept.toSynced.frame r.tasks (fun _ _ found => .inl found) (fun _ _ _ found _ => found)
  · intro e
    obtain ⟨inside, rfl⟩ := List.getElem?_eq_some_iff.mp out
    have taken := ((List.getElem_cons_eraseIdx_perm inside).flatten).count_eq e
    rw [List.flatten_cons, List.count_append] at taken
    have once := kept.once e
    rw [held_of_call]
    unfold places returned queue underWay at *
    dsimp only at *
    omega

/-- The pending reports, what a call has and what was reported change together. -/
theorem Kept.save (kept : Kept r) (loaded : r.loaded = true)
    (found : r.tasks.lookup id = some task) (pending recorded : List FalsePositiveReport)
    (batch : Option (List FalsePositiveReport))
    (balanced : ∀ e, pending.count e + (batch.getD []).count e + r.recorded.count e =
      r.pending.count e + task.held.count e + recorded.count e) :
    Kept ({ r with pending, recorded }.save id task batch) := by
  refine ⟨kept.toSynced.save loaded task id pending recorded batch, fun e => ?_⟩
  have once := kept.once e
  have moved := underWay_insert found { task with stage := .saving (r.called + 1) pending batch } e
  have balance := balanced e
  have held : Task.held { task with stage := .saving (r.called + 1) pending batch } =
      batch.getD [] := rfl
  rw [held] at moved
  unfold places queue returned underWay Reporter.save Reporter.advance at *
  simp only [loaded, if_true] at *
  omega

theorem Kept.erase (kept : Kept r) (found : r.tasks.lookup id = some task)
    (idle : ∀ number reports batch, task.stage ≠ .saving number reports batch)
    (batches : List (List FalsePositiveReport)) (balanced : ∀ e, batches.flatten.count e =
      r.batches.flatten.count e + task.held.count e) :
    Kept { r with tasks := r.tasks.erase id, batches } := by
  refine ⟨kept.toSynced.erase found idle batches, fun e => ?_⟩
  have once := kept.once e
  have moved := underWay_erase found e
  have balance := balanced e
  unfold places queue returned underWay at *
  dsimp only at *
  omega

theorem Kept.proceed (kept : Kept r) (found : r.tasks.lookup id = some task)
    (ready : task.stage = .ready) (now : Nat) : Kept (r.proceed id task now) := by
  have loaded : r.loaded = true := by
    apply kept.loaded_of_ready found
    · simp [ready]
    · simp [ready]
  have idle : ∀ number reports batch, task.stage ≠ .saving number reports batch := by
    simp [ready]
  obtain ⟨call, stage⟩ := task
  cases ready
  cases call with
  | report text verdict =>
    simp only [Reporter.proceed]
    cases hashText text with
    | none =>
      apply kept.erase found idle r.batches
      intro e
      rfl
    | some textHash =>
      apply kept.save loaded found
      intro e
      have nothing : Task.held ⟨.report text verdict, .ready⟩ = [] := rfl
      rw [nothing, List.count_append, List.count_append]
      simp only [Option.getD_none, List.count_nil]
      omega
  | pendingCount =>
    apply kept.erase found idle r.batches
    intro e
    rfl
  | flush =>
    apply kept.save loaded found
    intro e
    have nothing : Task.held ⟨.flush, .ready⟩ = [] := rfl
    rw [nothing]
    simp
  | restore batch =>
    apply kept.save loaded found
    intro e
    have held : Task.held ⟨.restore batch, .ready⟩ = batch := rfl
    rw [held, List.count_append]
    simp only [Option.getD_none, List.count_nil]
    omega

theorem Kept.reads (kept : Kept r) {call : Call}
    (found : r.tasks.lookup id = some ⟨call, .loading⟩) :
    Kept (r.advance id ⟨call, .loading⟩ (.loaded r.sink)) := by
  constructor
  · apply kept.toSynced.insert
    · exact ⟨fun _ => .inr rfl, fun number reports batch saving => by cases saving⟩
    · intro before found' batch saving
      cases found.symm.trans found'
      cases saving
  · intro e
    have held := underWay_advance found (.loaded r.sink) (by cases call <;> rfl) e
    have once := kept.once e
    unfold places at once ⊢
    rw [held]
    exact once

theorem Kept.assigns (kept : Kept r) {call : Call} {reports : List FalsePositiveReport}
    (found : r.tasks.lookup id = some ⟨call, .loaded reports⟩)
    (allowed : r.loaded = false ∨ r.pending = reports) :
    Kept ({ r with pending := reports, loaded := true }.advance id ⟨call, .loaded reports⟩
      .ready) := by
  refine ⟨kept.toSynced.assign found rfl allowed, fun e => ?_⟩
  have held := underWay_advance found .ready (by cases call <;> rfl) e
  have same : queue r = reports := by
    unfold queue
    split
    · next loaded => exact allowed.resolve_left (by simp [loaded])
    · next unloaded =>
      rw [Bool.not_eq_true] at unloaded
      rcases (kept.unloaded unloaded).2 id _ found with first | second
      · cases first
      · cases second
        rfl
  have once := kept.once e
  unfold places at once
  rw [same, ← held] at once
  exact once

theorem Kept.writes (kept : Kept r) {call : Call} {number : Nat} {reports : List FalsePositiveReport}
    {batch : Option (List FalsePositiveReport)}
    (found : r.tasks.lookup id = some ⟨call, .saving number reports batch⟩)
    (allowed : r.written < number) :
    Kept ({ r with sink := reports, written := number }.advance id
      ⟨call, .saving number reports batch⟩ (.saved batch)) := by
  refine ⟨kept.toSynced.write found rfl allowed, fun e => ?_⟩
  have held := underWay_advance found (.saved batch) rfl e
  have loaded : r.loaded = true := by
    apply kept.loaded_of_ready found
    · simp
    · simp
  have same : queue r = r.pending := if_pos loaded
  have once := kept.once e
  unfold places at once
  rw [same, ← held] at once
  have same' : queue ({ r with sink := reports, written := number }.advance id
      ⟨call, .saving number reports batch⟩ (.saved batch)) = r.pending := if_pos loaded
  unfold places
  rw [same']
  exact once

theorem Kept.step {a : Action} (kept : Kept r) (orderly : Orderly r a)
    (moved : machine.step r a = some r') : Kept r' := by
  have begins {id : Nat} {call : Call}
      (nothing : Task.held ⟨call, if r.loaded then .ready else .loading⟩ = [])
      (invoked : r.invoke id call = some r') : Kept r' := by
    apply Kept.invoke kept.toSynced _ invoked
    intro e
    rw [nothing]
    exact kept.once e
  cases a with
  | report id text verdict => exact begins (held_of_call ..) moved
  | pendingCount id => exact begins (held_of_call ..) moved
  | flush id => exact begins (held_of_call ..) moved
  | restore id i =>
    obtain ⟨batch, out, invoked⟩ := Option.bind_eq_some_iff.mp moved
    exact kept.restore out invoked
  | read id =>
    obtain ⟨⟨call, stage⟩, found, moved⟩ := Option.bind_eq_some_iff.mp moved
    obtain ⟨loading, same⟩ := Option.ite_none_right_eq_some.mp moved
    cases loading
    cases same
    exact kept.reads found
  | assign id =>
    obtain ⟨⟨call, stage⟩, found, moved⟩ := Option.bind_eq_some_iff.mp moved
    cases stage with
    | loaded reports =>
      cases moved
      exact kept.assigns found (by simpa only [Orderly, found] using orderly)
    | _ => cases moved
  | proceed id now =>
    obtain ⟨task, found, moved⟩ := Option.bind_eq_some_iff.mp moved
    obtain ⟨ready, same⟩ := Option.ite_none_right_eq_some.mp moved
    cases same
    exact kept.proceed found ready now
  | write id =>
    obtain ⟨⟨call, stage⟩, found, moved⟩ := Option.bind_eq_some_iff.mp moved
    cases stage with
    | saving number reports batch =>
      cases moved
      exact kept.writes found (by simpa only [Orderly, found] using orderly)
    | _ => cases moved
  | resolve id =>
    obtain ⟨⟨call, stage⟩, found, moved⟩ := Option.bind_eq_some_iff.mp moved
    cases stage with
    | saved batch =>
      cases batch with
      | none =>
        cases moved
        apply kept.erase found (by simp) r.batches
        intro e
        rfl
      | some batch =>
        cases moved
        apply kept.erase found (by simp)
        intro e
        have held : Task.held ⟨call, .saved (some batch)⟩ = batch := rfl
        rw [held, List.flatten_cons, List.count_append, Nat.add_comm]
    | _ => cases moved

/-- **No report is lost or told twice.** In every run in which a load that ends after another
brings what is pending, and saves take effect in the order in which they were called:
whenever no call is under way, every report is pending or in one batch that was returned and
not put back, and the sink has exactly the pending ones. -/
theorem reports_conserved (reached : machine.Reached Orderly r) (quiescent : Quiescent r) :
    Conserved r := by
  have kept : Kept r := by
    apply reached.invariant Kept
    · intro r started
      rw [started]
      constructor
      · constructor
        · refine fun _ => ⟨rfl, fun id task found => ?_⟩
          cases found
        · intro id task number reports batch found
          cases found
        · intro loaded
          cases loaded
      · intro e
        rfl
    · exact fun _ _ _ holds orderly moved => holds.step orderly moved
  exact kept.conserved quiescent

/-! ### Schedules -/

def empty : Reporter := { sink := [], recorded := [] }

def otp : Text := utf16 "otp"

def verdict : ScamVerdict := ⟨true, none, .finite 0, []⟩

/-- How many calls are under way, and how many reports are pending or out, were made, are
pending and are in the sink. -/
def counts (r : Reporter) : Nat × Nat × Nat × Nat × Nat :=
  (r.tasks.entries.length, (queue r ++ returned r).length, r.recorded.length, (queue r).length,
    r.sink.length)

/-- A report is made, handed out and put back. -/
theorem reports_conserved_restored : ∃ r, machine.Reached Orderly r ∧ Conserved r ∧
    (queue r).length = 1 ∧ r.recorded.length = 1 := by
  have observed : (machine.checkedRun Orderly empty
      [.report 1 otp verdict, .read 1, .assign 1, .proceed 1 0, .write 1, .resolve 1,
        .flush 2, .proceed 2 1, .write 2, .resolve 2,
        .restore 3 0, .proceed 3 2, .write 3, .resolve 3]).map counts =
      some (0, 1, 1, 1, 1) := by decide +kernel
  obtain ⟨r, reached, seen⟩ := Machine.reached_of_observed observed (.start rfl)
  simp only [counts, Prod.mk.injEq] at seen
  obtain ⟨quiet, -, made, pending, -⟩ := seen
  exact ⟨r, reached, reports_conserved reached (List.length_eq_zero_iff.mp quiet), pending, made⟩

/-- Two reports are the first calls: both load the empty list, and the second load ends when
the first report is pending and saved.  That report is lost.  And where two saves overtake
each other, the sink is left with the older list. -/
theorem reports_not_conserved :
    (∃ r, machine.Reachable r ∧ Quiescent r ∧ (queue r ++ returned r).length = 1 ∧
      r.recorded.length = 2) ∧
    (∃ r, machine.Reachable r ∧ Quiescent r ∧ (queue r).length = 2 ∧ r.sink.length = 1) ∧
    ¬ ∀ r, machine.Reachable r → Quiescent r → Conserved r := by
  have observed : (machine.run empty
      [.report 1 otp verdict, .report 2 otp verdict, .read 1, .read 2, .assign 1, .proceed 1 0,
        .write 1, .resolve 1, .assign 2, .proceed 2 1, .write 2, .resolve 2]).map counts =
      some (0, 1, 2, 1, 1) := by decide +kernel
  have observed' : (machine.run empty
      [.pendingCount 0, .read 0, .assign 0, .proceed 0 0, .report 1 otp verdict,
        .report 2 otp verdict, .proceed 1 0, .proceed 2 1, .write 2, .write 1, .resolve 1,
        .resolve 2]).map counts = some (0, 2, 2, 2, 1) := by decide +kernel
  obtain ⟨r, reached, seen⟩ := Machine.reachable_of_observed observed rfl
  obtain ⟨r', reached', seen'⟩ := Machine.reachable_of_observed observed' rfl
  simp only [counts, Prod.mk.injEq] at seen seen'
  obtain ⟨quiet, places, made, -, -⟩ := seen
  obtain ⟨quiet', -, -, pending', stored'⟩ := seen'
  have quiescent : Quiescent r := List.length_eq_zero_iff.mp quiet
  refine ⟨⟨r, reached, quiescent, places, made⟩,
    ⟨r', reached', List.length_eq_zero_iff.mp quiet', pending', stored'⟩, fun all => ?_⟩
  have same := (all r reached quiescent).once.length_eq
  omega

end Hwfa.FalsePositiveReports
