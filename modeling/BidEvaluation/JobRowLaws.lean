-- The law of the job table: the store on PostgreSQL tells of every job what
-- the store in memory tells exactly when no call says something about a job
-- that the table does not keep.
import BidEvaluation.JobRows
import BidEvaluation.Lib.OwnedTable
import BidEvaluation.Lib.Twins
import BidEvaluation.RunSteps

open dict_lib stepwise lockstep twins bid_evaluation.values bid_evaluation.job_rows
open bid_evaluation.core (Env ErrorInfo Job JobPayload JobStatus JobType ALLOWED_TRANSITIONS)
open bid_evaluation.job_run (RunFlags can_start wordOr)
open bid_evaluation.run_steps (edge_to_running)
open bid_evaluation.operations (calm_env)

namespace bid_evaluation.job_row_laws

variable {env : Env} {s t : State} {P : State → Prop}

/-! ## The table is the memory -/

/-- The columns say all of the job, and its tenant is the one of the row. -/
structure InColumns (job : Job) : Prop where
  tenant : job.tenant_id ≠ ""
  errors : job.errors = []
  error_code : job.error_code = none
  next_retry_at : job.next_retry_at = none

/-- The store in memory, and the store on PostgreSQL. -/
structure Mirrored (s t : State) : Prop where
  jobs : t.jobs = s.jobs
  rows : ∀ job_id, t.rows.get? job_id = (s.jobs.get? job_id).map fun job => row_of (row_tenant job) job
  columns : ∀ job_id job, s.jobs.get? job_id = some job → InColumns job

theorem mirrored_empty : Mirrored State.empty State.empty :=
  ⟨rfl, fun _ => rfl, fun _ _ h => by cases h⟩

theorem row_tenant_eq {job : Job} (h : job.tenant_id ≠ "") : row_tenant job = job.tenant_id := if_neg h

/-- A job in the columns comes back as it was. -/
theorem job_of_row {job : Job} (h : InColumns job) : (row_of (row_tenant job) job).job = job := by
  rw [row_tenant_eq h.tenant]
  obtain ⟨-, herrors, hcode, hretry⟩ := h
  unfold JobRow.job row_of
  cases job
  cases herrors
  cases hcode
  cases hretry
  rfl

theorem Mirrored.put (h : Mirrored s t) {job : Job} (hjob : InColumns job) :
    Mirrored (put_job s job) (upsert (put_job t job) job) where
  jobs := by
    show t.jobs.put job = s.jobs.put job
    rw [h.jobs]
  rows job_id := by
    show (t.rows.put (row_of (row_tenant job) job)).get? job_id = _
    rw [Table.get?_put, h.rows]
    show (if job_id = job.job_id then _ else _) = Option.map _ ((s.jobs.put job).get? job_id)
    rw [Table.get?_put]
    split <;> rfl
  columns job_id stored hstored := by
    have hget : (s.jobs.put job).get? job_id = some stored := hstored
    rw [Table.get?_put] at hget
    split at hget
    · cases hget
      exact hjob
    · exact h.columns job_id stored hget

/-- To load a row of the table changes nothing in the memory. -/
theorem Mirrored.put_loaded (h : Mirrored s t) {job_id : String} {job : Job}
    (hjob : s.jobs.get? job_id = some job) : put_job t job = t := by
  have hid := s.jobs.key_of_get? hjob
  have hsame : t.jobs.put job = t.jobs := by
    rw [Table.put_eq_self_iff, hid, h.jobs]
    exact hjob
  unfold put_job
  rw [hsame]

/-! ## Reads -/

/-- A job of that id and, if one is named, of that tenant. -/
structure Listed (job_id : String) (tenant_id : Option String) (job : Job) : Prop where
  id : job.job_id = job_id
  tenant : ∀ named ∈ tenant_id, job.tenant_id = named
  columns : InColumns job

structure Found (job_id : String) (tenant_id : Option String) (job : Job) (s : State) : Prop where
  stored : s.jobs.get? job_id = some job
  listed : Listed job_id tenant_id job

theorem Mirrored.found (h : Mirrored s t) {job_id : String} {tenant_id : Option String} {job : Job}
    (hstored : s.jobs.get? job_id = some job) (htenant : ∀ named ∈ tenant_id, job.tenant_id = named) :
    Found job_id tenant_id job s :=
  ⟨hstored, s.jobs.key_of_get? hstored, htenant, h.columns job_id job hstored⟩

theorem get_in_memory_cases (s : State) (job_id tenant_id : String) :
    (get_in_memory job_id tenant_id).final s = s ∧
      ((get_in_memory job_id tenant_id).result s = .ok none ∧ s.jobs.get? job_id = none ∨
        ∃ job, s.jobs.get? job_id = some job ∧
          (job.tenant_id = tenant_id ∧ (get_in_memory job_id tenant_id).result s = .ok (some job) ∨
            job.tenant_id ≠ tenant_id ∧ ∃ e, (get_in_memory job_id tenant_id).result s = .error e)) := by
  unfold get_in_memory
  rw [final_read, result_read]
  rcases hget : s.jobs.get? job_id with _ | job
  · exact ⟨rfl, .inl ⟨rfl, rfl⟩⟩
  · dsimp only
    by_cases htenant : job.tenant_id = tenant_id
    · rw [if_neg (not_not.2 htenant)]
      exact ⟨rfl, .inr ⟨job, rfl, .inl ⟨htenant, rfl⟩⟩⟩
    · rw [if_pos htenant]
      exact ⟨rfl, .inr ⟨job, rfl, .inr ⟨htenant, _, rfl⟩⟩⟩

/-- A job that has a row of the tenant is read from the row, and nothing
changes. Any other read is one of the memory. -/
theorem get_loaded_eq (h : Mirrored s t) (job_id tenant_id : String) :
    (get_loaded job_id tenant_id).result t = (get_in_memory job_id tenant_id).result s ∧
      (get_loaded job_id tenant_id).final t = t := by
  have hmemory : (get_in_memory job_id tenant_id).result t =
      (get_in_memory job_id tenant_id).result s := by
    unfold get_in_memory
    rw [result_read, result_read, h.jobs]
    rcases s.jobs.get? job_id with _ | job
    · rfl
    · dsimp only
      split <;> rfl
  unfold get_loaded
  rw [final_read, result_read]
  have hrow : get_row t job_id tenant_id = ((s.jobs.get? job_id).map fun job =>
      row_of (row_tenant job) job).filter fun row => row.tenant_id = tenant_id := by
    unfold get_row
    rw [h.rows]
  rw [hrow]
  rcases hget : s.jobs.get? job_id with _ | job
  · exact ⟨hmemory, (get_in_memory_cases t job_id tenant_id).1⟩
  · have hcolumns := h.columns job_id job hget
    have hloaded := job_of_row hcolumns
    by_cases htenant : job.tenant_id = tenant_id
    · have hfilter : ((some job).map fun job => row_of (row_tenant job) job).filter
          (fun row => row.tenant_id = tenant_id) = some (row_of (row_tenant job) job) := by
        rw [Option.map_some, Option.filter_some, if_pos]
        show decide (row_tenant job = tenant_id) = true
        rw [row_tenant_eq hcolumns.tenant]
        exact decide_eq_true htenant
      rw [hfilter]
      dsimp only
      rw [hloaded]
      refine ⟨?_, h.put_loaded hget⟩
      unfold get_in_memory
      rw [result_read, hget]
      dsimp only
      rw [if_neg (not_not.2 htenant)]
      rfl
    · have hfilter : ((some job).map fun job => row_of (row_tenant job) job).filter
          (fun row => row.tenant_id = tenant_id) = none := by
        rw [Option.map_some, Option.filter_some, if_neg]
        show ¬decide (row_tenant job = tenant_id) = true
        rw [row_tenant_eq hcolumns.tenant]
        exact fun heq => htenant (of_decide_eq_true heq)
      rw [hfilter]
      exact ⟨hmemory, (get_in_memory_cases t job_id tenant_id).1⟩

theorem views_eq (h : Mirrored s t) : views .in_memory s = views .postgres t := by
  funext job_id tenant_id
  show Except.map _ ((get_in_memory job_id tenant_id).result s) =
    Except.map _ ((get_loaded job_id tenant_id).result t)
  rw [(get_loaded_eq h job_id tenant_id).1]

theorem get_job_for_tenant.twins (job_id tenant_id : String) :
    Twins Mirrored P (get_job_for_tenant .in_memory job_id tenant_id)
      (get_job_for_tenant .postgres job_id tenant_id)
      (fun found s => P s ∧ ∀ job ∈ found, Found job_id (some tenant_id) job s) := by
  intro s t hR hP
  unfold get_job_for_tenant
  dsimp only
  obtain ⟨hresult, hfinal⟩ := get_loaded_eq hR job_id tenant_id
  obtain ⟨hsame, hcases⟩ := get_in_memory_cases s job_id tenant_id
  rw [hresult, hfinal, hsame]
  refine ⟨rfl, hR, fun found hfound => ⟨hP, fun job hjob => ?_⟩⟩
  cases hjob
  rcases hcases with ⟨hnone, -⟩ | ⟨stored, hstored, ⟨htenant, hsome⟩ | ⟨-, e, herror⟩⟩
  · rw [hnone] at hfound
    cases hfound
  · rw [hsome] at hfound
    cases hfound
    refine hR.found hstored fun named hnamed => ?_
    cases hnamed
    exact htenant
  · rw [herror] at hfound
    cases hfound

theorem require_job.twins (job_id : String) (tenant_id : Option String) :
    Twins Mirrored P (require_job .in_memory job_id tenant_id)
      (require_job .postgres job_id tenant_id)
      (fun job s => P s ∧ Found job_id tenant_id job s) := by
  have hget : Twins Mirrored P (get_job .in_memory job_id tenant_id)
      (get_job .postgres job_id tenant_id)
      (fun found s => P s ∧ ∀ job ∈ found, Found job_id tenant_id job s) := by
    rcases tenant_id with _ | tenant_id
    · intro s t hR hP
      refine ⟨?_, hR, fun found hfound => ⟨hP, fun job hjob => ?_⟩⟩
      · show Except.ok (s.jobs.get? job_id) = Except.ok (t.jobs.get? job_id)
        rw [hR.jobs]
      · cases hjob
        have hstored : s.jobs.get? job_id = some job := Except.ok.inj hfound
        exact hR.found hstored fun _ hnamed => by cases hnamed
    · exact get_job_for_tenant.twins job_id tenant_id
  refine hget.bind fun found => ?_
  rcases found with _ | job
  · exact twins_raise _
  · exact twins_pure job fun s hs => ⟨hs.1, hs.2 job rfl⟩

/-! ## Calls that the table keeps -/

theorem persist_job.twins {job : Job} (hjob : InColumns job) :
    Twins Mirrored P (persist_job .in_memory job) (persist_job .postgres job)
      (fun saved s => saved = job ∧ s.jobs.get? job.job_id = some job) := by
  intro s t hR hP
  refine ⟨rfl, hR.put hjob, fun saved hsaved => ?_⟩
  cases hsaved
  exact ⟨rfl, s.jobs.get?_put_self job⟩

/-- A saved job is found again. -/
theorem persist_job.finds {job_id : String} {tenant_id : Option String} {job : Job}
    (h : Listed job_id tenant_id job) :
    Twins Mirrored P (persist_job .in_memory job) (persist_job .postgres job)
      (fun saved s => saved = job ∧ Found job_id tenant_id job s) := by
  refine (persist_job.twins h.columns).mono (fun _ hP => hP) fun saved s ⟨hsaved, hstored⟩ => ?_
  exact ⟨hsaved, h.id ▸ hstored, h⟩

theorem Listed.moved_to {job_id : String} {tenant_id : Option String} {job : Job}
    (h : Listed job_id tenant_id job) (status : JobStatus) :
    Listed job_id tenant_id (moved_to job status) :=
  ⟨h.id, h.tenant, h.columns.tenant, h.columns.errors, h.columns.error_code, h.columns.next_retry_at⟩

theorem Listed.with_thread {job_id : String} {tenant_id : Option String} {job : Job}
    (h : Listed job_id tenant_id job) (thread_id : String) :
    Listed job_id tenant_id { job with thread_id := thread_id } :=
  ⟨h.id, h.tenant, h.columns.tenant, h.columns.errors, h.columns.error_code, h.columns.next_retry_at⟩

theorem Listed.retried {job_id : String} {tenant_id : Option String} {job : Job}
    (h : Listed job_id tenant_id job) :
    Listed job_id tenant_id { job with next_retry_at := none } :=
  ⟨h.id, h.tenant, h.columns.tenant, h.columns.errors, h.columns.error_code, rfl⟩

theorem transition_job_status.twins (job_id : String) (new_status : JobStatus)
    (tenant_id : Option String) :
    Twins Mirrored P (transition_job_status .in_memory job_id new_status tenant_id)
      (transition_job_status .postgres job_id new_status tenant_id)
      (fun job s => Found job_id tenant_id job s ∧ job.status = new_status) := by
  refine (require_job.twins job_id tenant_id).bind fun job =>
    twins_given (fun s hs => hs.2.listed) fun hlisted => ?_
  refine twins_ite (fun hsame => ?_) fun _ => ?_
  · exact twins_pure job fun s hs => ⟨hs.2, hsame.symm⟩
  · refine twins_ite (fun _ => twins_raise _) fun _ => ?_
    refine (persist_job.finds (hlisted.moved_to new_status)).mono (fun _ h => h) ?_
    rintro _ s ⟨rfl, hfound⟩
    exact ⟨hfound, rfl⟩

/-- The job that a run has begun. -/
def Begun (job_id tenant_id : String) (job : Job) (s : State) : Prop :=
  Found job_id (some tenant_id) job s ∧ job.status = .running

theorem begin_run.twins (given : Given) (job_id tenant_id : String) :
    Twins Mirrored P (begin_run .in_memory given job_id tenant_id)
      (begin_run .postgres given job_id tenant_id) (Begun job_id tenant_id) := by
  refine (require_job.twins job_id (some tenant_id)).bind fun job =>
    twins_given (fun s hs => hs.2.listed) fun hlisted => ?_
  have hthread : Twins Mirrored (fun s => P s ∧ Found job_id (some tenant_id) job s)
      (ensure_thread .in_memory given job) (ensure_thread .postgres given job)
      (fun job s => Found job_id (some tenant_id) job s) := by
    refine twins_ite (fun _ => ?_) fun _ => twins_pure job fun s hs => hs.2
    refine (persist_job.finds (hlisted.with_thread given.thread_id)).mono (fun _ h => h) ?_
    rintro _ s ⟨rfl, hfound⟩
    exact hfound
  refine hthread.bind fun job => twins_given (fun s hs => hs.listed) fun hlisted => ?_
  have hrunning : Twins Mirrored (fun s => Found job_id (some tenant_id) job s)
      (move_to_running .in_memory job tenant_id) (move_to_running .postgres job tenant_id)
      (fun job s => Found job_id (some tenant_id) job s) := by
    refine twins_ite (fun _ => ?_) fun _ => twins_pure job fun s hs => hs
    rw [hlisted.id]
    exact (transition_job_status.twins job_id .running (some tenant_id)).mono (fun _ h => h)
      fun _ _ hmoved => hmoved.1
  refine hrunning.bind fun job => ?_
  exact twins_ite (fun hstatus => twins_pure job fun s hs => ⟨hs, hstatus⟩) fun _ => twins_raise _

theorem succeed_job.twins (job : Job) (tenant_id : String) :
    Twins Mirrored P (succeed_job .in_memory job tenant_id) (succeed_job .postgres job tenant_id)
      (fun _ _ => True) := by
  refine (transition_job_status.twins job.job_id .succeeded (some tenant_id)).bind fun moved =>
    twins_given (fun s hs => hs.1.listed) fun hlisted => ?_
  exact (persist_job.finds hlisted.retried).mono (fun _ h => h) fun _ _ _ => trivial

theorem run_by_type.twins (given : Given) (job : Job) (tenant_id : String) :
    Twins Mirrored P (run_by_type .in_memory given job tenant_id)
      (run_by_type .postgres given job tenant_id) (fun _ _ => True) := by
  have hmove (status : JobStatus) :
      Twins Mirrored P (transition_job_status .in_memory job.job_id status (some tenant_id))
        (transition_job_status .postgres job.job_id status (some tenant_id)) (fun _ _ => True) :=
    (transition_job_status.twins job.job_id status (some tenant_id)).mono (fun _ h => h)
      fun _ _ _ => trivial
  unfold run_by_type
  cases job.job_type with
  | evaluation =>
    unfold run_evaluation_workflow
    cases given.workflow with
    | finished => exact hmove .succeeded
    | interrupted => exact hmove .needs_manual_decision
    | raised e => exact twins_raise e
  | resume =>
    unfold run_resume_workflow
    cases given.workflow with
    | finished => exact hmove .succeeded
    | interrupted => exact twins_raise _
    | raised e => exact twins_raise e
  | parse => exact succeed_job.twins job tenant_id
  | requeue => exact succeed_job.twins job tenant_id
  | replay_verification => exact succeed_job.twins job tenant_id

/-! ## When a run begins -/

/-- The job is there for the tenant, and can start or runs. -/
def Runs (s : State) (job_id tenant_id : String) : Prop :=
  ∃ job, s.jobs.get? job_id = some job ∧ job.tenant_id = tenant_id ∧
    (can_start job.status = true ∨ job.status = .running)

/-- A program of the store in memory returns a job of this status, and leaves
it stored. -/
def Leaves (job_id tenant_id : String) (status : JobStatus) (m : Prog State PyErr Job) (s : State) :
    Prop :=
  ∃ job, m.result s = .ok job ∧ (m.final s).jobs.get? job_id = some job ∧
    job.tenant_id = tenant_id ∧ job.status = status

theorem require_job.returns {job_id : String} {job : Job} (h : s.jobs.get? job_id = some job) :
    (require_job .in_memory job_id (some job.tenant_id)).result s = .ok job ∧
      (require_job .in_memory job_id (some job.tenant_id)).final s = s := by
  obtain ⟨hfinal, hcases⟩ := get_in_memory_cases s job_id job.tenant_id
  rcases hcases with ⟨-, hnone⟩ | ⟨stored, hstored, ⟨-, hsome⟩ | ⟨hother, -⟩⟩
  · rw [h] at hnone
    cases hnone
  · rw [h] at hstored
    cases hstored
    unfold require_job get_job get_job_for_tenant
    rw [result_bind hsome, final_bind hsome, hfinal]
    exact ⟨rfl, rfl⟩
  · rw [h] at hstored
    cases hstored
    exact absurd rfl hother

theorem require_job.raises {job_id tenant_id : String}
    (h : ∀ job, s.jobs.get? job_id = some job → job.tenant_id ≠ tenant_id) :
    ∃ e, (require_job .in_memory job_id (some tenant_id)).result s = .error e := by
  obtain ⟨-, hcases⟩ := get_in_memory_cases s job_id tenant_id
  unfold require_job get_job get_job_for_tenant
  rcases hcases with ⟨hnone, -⟩ | ⟨job, hstored, ⟨htenant, -⟩ | ⟨-, e, herror⟩⟩
  · rw [result_bind hnone]
    exact ⟨_, rfl⟩
  · exact absurd htenant (h job hstored)
  · exact ⟨e, result_bind_error herror⟩

/-- A move along an edge returns. -/
theorem transition_job_status.leaves {job_id : String} {job : Job} {status : JobStatus}
    (hstored : s.jobs.get? job_id = some job) (hne : status ≠ job.status)
    (hedge : status ∈ ALLOWED_TRANSITIONS job.status) :
    Leaves job_id job.tenant_id status
      (transition_job_status .in_memory job_id status (some job.tenant_id)) s := by
  obtain ⟨hresult, hfinal⟩ := require_job.returns hstored
  have hid := s.jobs.key_of_get? hstored
  refine ⟨moved_to job status, ?_, ?_, rfl, rfl⟩
  · unfold transition_job_status
    rw [result_bind hresult, if_neg hne, if_neg (not_not.2 hedge)]
    rfl
  · unfold transition_job_status
    rw [final_bind hresult, if_neg hne, if_neg (not_not.2 hedge), hfinal]
    show (s.jobs.put (moved_to job status)).get? job_id = some (moved_to job status)
    rw [← hid]
    exact s.jobs.get?_put_self (moved_to job status)

theorem ensure_thread.leaves (given : Given) {job_id : String} {job : Job}
    (hstored : s.jobs.get? job_id = some job) :
    Leaves job_id job.tenant_id job.status (ensure_thread .in_memory given job) s := by
  have hid := s.jobs.key_of_get? hstored
  unfold ensure_thread
  split
  · refine ⟨{ job with thread_id := given.thread_id }, rfl, ?_, rfl, rfl⟩
    show (s.jobs.put { job with thread_id := given.thread_id }).get? job_id = _
    rw [← hid]
    exact s.jobs.get?_put_self _
  · exact ⟨job, rfl, hstored, rfl, rfl⟩

theorem move_to_running.leaves {job_id : String} {job : Job} (hstored : s.jobs.get? job_id = some job) :
    Leaves job_id job.tenant_id (if can_start job.status then .running else job.status)
      (move_to_running .in_memory job job.tenant_id) s := by
  unfold move_to_running
  rw [s.jobs.key_of_get? hstored]
  split
  · rename_i hcan
    refine transition_job_status.leaves hstored ?_ (edge_to_running hcan)
    rintro hrunning
    rw [← hrunning] at hcan
    cases hcan
  · exact ⟨job, rfl, hstored, rfl, rfl⟩

theorem begin_run.returns_iff (s : State) (given : Given) (job_id tenant_id : String) :
    (∃ job, (begin_run .in_memory given job_id tenant_id).result s = .ok job) ↔
      Runs s job_id tenant_id := by
  by_cases hjob : ∃ job, s.jobs.get? job_id = some job ∧ job.tenant_id = tenant_id
  · obtain ⟨job, hstored, rfl⟩ := hjob
    obtain ⟨hrequired, hsame⟩ := require_job.returns hstored
    obtain ⟨threaded, hthreaded, hthread, htenant, hstatus⟩ := ensure_thread.leaves given hstored
    obtain ⟨started, hstarted, -, -, hrunning⟩ := move_to_running.leaves hthread
    rw [htenant] at hstarted
    rw [hstatus] at hrunning
    unfold begin_run
    rw [result_bind hrequired, hsame, result_bind hthreaded, result_bind hstarted]
    constructor
    · rintro ⟨_, hresult⟩
      refine ⟨job, hstored, rfl, ?_⟩
      by_contra hno
      obtain ⟨hcan, hnot⟩ := not_or.1 hno
      rw [if_neg hcan] at hrunning
      rw [hrunning, if_neg hnot] at hresult
      cases hresult
    · rintro ⟨other, hother, -, hstart⟩
      rw [hstored] at hother
      cases hother
      have hnow : started.status = .running := by
        rcases hstart with hcan | hnow
        · rw [hrunning, if_pos hcan]
        · rw [hrunning, hnow]
          rfl
      rw [if_pos hnow]
      exact ⟨started, rfl⟩
  · constructor
    · rintro ⟨job, hresult⟩
      obtain ⟨e, he⟩ : ∃ e, (require_job .in_memory job_id (some tenant_id)).result s = .error e :=
        require_job.raises fun job hstored htenant => hjob ⟨job, hstored, htenant⟩
      unfold begin_run at hresult
      rw [result_bind_error he] at hresult
      cases hresult
    · rintro ⟨job, hstored, htenant, -⟩
      exact absurd ⟨job, hstored, htenant⟩ hjob

/-! ## Calls that the table does not keep -/

/-- Some tenant reads some job in another way. -/
def TellApart (s t : State) : Prop := views .in_memory s ≠ views .postgres t

theorem view_in_memory {job_id : String} {job : Job} (h : s.jobs.get? job_id = some job) :
    views .in_memory s job_id job.tenant_id = .ok (some (view_of job)) := by
  unfold views get_job_for_tenant get_in_memory
  rw [result_read, h]
  dsimp only
  rw [if_neg (not_not.2 rfl)]
  rfl

theorem view_foreign {job_id tenant_id : String} {job : Job} (h : s.jobs.get? job_id = some job)
    (htenant : job.tenant_id ≠ tenant_id) :
    ∃ e, views .in_memory s job_id tenant_id = .error e := by
  unfold views get_job_for_tenant get_in_memory
  rw [result_read, h]
  dsimp only
  rw [if_pos htenant]
  exact ⟨_, rfl⟩

theorem view_postgres {row : JobRow} {job_id : String} (h : t.rows.get? job_id = some row) :
    views .postgres t job_id row.tenant_id = .ok (some (view_of row.job)) := by
  have hrow : get_row t job_id row.tenant_id = some row := by
    unfold get_row
    rw [h, Option.filter_some, if_pos (decide_eq_true rfl)]
  unfold views get_job_for_tenant get_loaded
  rw [result_read, hrow]
  rfl

/-- A job in memory that its row does not tell. -/
theorem tell_apart {job_id : String} {job : Job} {row : JobRow} (hjob : s.jobs.get? job_id = some job)
    (hrow : t.rows.get? job_id = some row) (htenant : row.tenant_id = job.tenant_id)
    (hview : view_of job ≠ view_of row.job) : TellApart s t := by
  intro heq
  have hat := congrFun (congrFun heq job_id) row.tenant_id
  rw [view_postgres hrow, htenant, view_in_memory hjob] at hat
  exact hview (Option.some.inj (Except.ok.inj hat))

theorem persist_job.parts {job : Job} (htenant : job.tenant_id ≠ "") (herrors : job.errors ≠ []) :
    Parts Mirrored P (persist_job .in_memory job) (persist_job .postgres job) TellApart := by
  intro s t _ _
  have hjob : (put_job s job).jobs.get? job.job_id = some job := s.jobs.get?_put_self job
  have hrow : (upsert (put_job t job) job).rows.get? job.job_id = some (row_of (row_tenant job) job) :=
    t.rows.get?_put_self (row_of (row_tenant job) job)
  exact tell_apart hjob hrow (row_tenant_eq htenant) fun hview => herrors (congrArg JobView.errors hview)

/-- A job of no tenant has a row of `tenant_default`. -/
theorem persist_job.parts_default {job : Job} (htenant : job.tenant_id = "") :
    Parts Mirrored P (persist_job .in_memory job) (persist_job .postgres job) TellApart := by
  intro s t _ _ heq
  have hjob : (put_job s job).jobs.get? job.job_id = some job := s.jobs.get?_put_self job
  have hrow : (upsert (put_job t job) job).rows.get? job.job_id = some (row_of (row_tenant job) job) :=
    t.rows.get?_put_self (row_of (row_tenant job) job)
  have hforeign : job.tenant_id ≠ row_tenant job := by
    rw [show row_tenant job = "tenant_default" from if_pos htenant, htenant]
    decide
  obtain ⟨e, he⟩ := view_foreign hjob hforeign
  have hat : views .in_memory (put_job s job) job.job_id (row_tenant job) =
      views .postgres (upsert (put_job t job) job) job.job_id (row_tenant job) :=
    congrFun (congrFun heq job.job_id) (row_tenant job)
  have hpostgres := view_postgres hrow
  rw [he] at hat
  cases hat.trans hpostgres

theorem transition_job_status.parts {job_id tenant_id : String} {status new_status : JobStatus}
    {f g : Job → Prog State PyErr Job} (hedge : new_status ∈ ALLOWED_TRANSITIONS status)
    (hne : new_status ≠ status)
    (hf : ∀ job, Parts Mirrored (fun s => Found job_id (some tenant_id) job s ∧ job.status = new_status)
      (f job) (g job) TellApart) (job : Job) :
    Parts Mirrored (fun s => Found job_id (some tenant_id) job s ∧ job.status = status)
      (transition_job_status .in_memory job_id new_status (some tenant_id) >>= f)
      (transition_job_status .postgres job_id new_status (some tenant_id) >>= g) TellApart := by
  refine (transition_job_status.twins job_id new_status (some tenant_id)).parts ?_ hf
  rintro s ⟨hfound, rfl⟩
  have htenant := hfound.listed.tenant tenant_id rfl
  obtain ⟨moved, hresult, -⟩ := transition_job_status.leaves hfound.stored hne hedge
  rw [htenant] at hresult
  exact ⟨moved, hresult⟩

theorem with_error_parts (job : Job) (retry_at : Option Int) (error_info : ErrorInfo)
    {job_id tenant_id : String} {status : JobStatus} :
    Parts Mirrored (fun s => Found job_id (some tenant_id) job s ∧ job.status = status)
      (persist_job .in_memory (with_error job retry_at error_info))
      (persist_job .postgres (with_error job retry_at error_info)) TellApart := by
  intro s t hR hfound
  have htenant : (with_error job retry_at error_info).tenant_id ≠ "" := hfound.1.listed.columns.tenant
  have herrors : (with_error job retry_at error_info).errors ≠ [] :=
    List.append_ne_nil_of_right_ne_nil job.errors (List.cons_ne_nil error_info [])
  exact persist_job.parts (P := fun _ => True) htenant herrors s t hR trivial

theorem retry_job.parts (given : Given) (job : Job) (job_id tenant_id error_code : String) :
    Parts Mirrored (Begun job_id tenant_id job) (retry_job .in_memory env given job tenant_id error_code)
      (retry_job .postgres env given job tenant_id error_code) TellApart := by
  intro s t hR hbegun
  have hid := hbegun.1.listed.id
  unfold retry_job
  rw [hid]
  exact transition_job_status.parts (by decide) (by decide)
    (fun retried => with_error_parts retried _ _) job s t hR hbegun

theorem fail_job.parts (given : Given) (job : Job) (job_id tenant_id : String)
    (force_error_code : Option String) :
    Parts Mirrored (Begun job_id tenant_id job)
      (fail_job .in_memory given job tenant_id force_error_code)
      (fail_job .postgres given job tenant_id force_error_code) TellApart := by
  intro s t hR hbegun
  have hid := hbegun.1.listed.id
  unfold fail_job
  dsimp only
  rw [hid]
  refine transition_job_status.parts (by decide) (by decide) (fun pending => ?_) job s t hR hbegun
  refine transition_job_status.parts (by decide) (by decide) (fun recorded => ?_) pending
  exact transition_job_status.parts (by decide) (by decide)
    (fun failed => with_error_parts failed _ _) recorded

theorem cancel_job.parts {job_id tenant_id : String} {job : Job} (h : Mirrored s t)
    (hstored : s.jobs.get? job_id = some job) (htenant : job.tenant_id = tenant_id)
    (hopen : ¬(job.status = .succeeded ∨ job.status = .failed)) :
    TellApart ((cancel_job .in_memory job_id tenant_id).final s)
      ((cancel_job .postgres job_id tenant_id).final t) := by
  subst htenant
  obtain ⟨hresult, hfinal⟩ := require_job.returns hstored
  obtain ⟨hsame, hmirrored, -⟩ :=
    require_job.twins (P := fun _ => True) job_id (some job.tenant_id) s t h trivial
  have hresult' := hsame.symm.trans hresult
  rw [hfinal] at hmirrored
  have hid := s.jobs.key_of_get? hstored
  unfold cancel_job
  rw [final_bind hresult, if_neg hopen, hfinal, final_bind hresult', if_neg hopen]
  have hjob : (put_job s (cancelled_job job)).jobs.get? job_id = some (cancelled_job job) := by
    rw [← hid]
    exact s.jobs.get?_put_self (cancelled_job job)
  have hrow := hmirrored.rows job_id
  rw [hstored] at hrow
  refine tell_apart hjob hrow (row_tenant_eq (h.columns job_id job hstored).tenant) fun hview => ?_
  have hcode := congrArg JobView.error_code hview
  cases hcode

/-! ## The law -/

def Fails (flags : RunFlags) : Prop := flags.force_fail = true ∨ flags.transient_fail = true

/-- The job is there for the tenant, and has not ended. -/
def Cancels (s : State) (job_id tenant_id : String) : Prop :=
  ∃ job, s.jobs.get? job_id = some job ∧ job.tenant_id = tenant_id ∧
    ¬(job.status = .succeeded ∨ job.status = .failed)

/-- The call has nothing to say about a job that the table does not keep: it
creates a job of some tenant, it fails or retries no run that begins, and it
cancels no job. -/
def FitsTheTable (s : State) : Call → Prop
  | .create new => new.tenant_id ≠ ""
  | .run_job_once job_id tenant_id flags _ => Fails flags → ¬Runs s job_id tenant_id
  | .cancel_job job_id tenant_id => ¬Cancels s job_id tenant_id
  | _ => True

theorem quiet_final (m : Prog State PyErr α) (s : State) : (quiet m).final s = m.final s :=
  final_bind_pure fun _ => ()

theorem run_started.parts {flags : RunFlags} (given : Given) (job : Job) {job_id tenant_id : String}
    (hfails : Fails flags) :
    Parts Mirrored (Begun job_id tenant_id job) (run_started .in_memory env given job tenant_id flags)
      (run_started .postgres env given job tenant_id flags) TellApart := by
  unfold run_started
  split
  · exact fail_job.parts given job job_id tenant_id flags.force_error_code
  · rename_i hforce
    have htransient := hfails.resolve_left hforce
    rw [if_pos htransient, if_pos htransient]
    dsimp only
    split
    · exact retry_job.parts given job job_id tenant_id _
    · exact fail_job.parts given job job_id tenant_id _

theorem run_started.twins {flags : RunFlags} (given : Given) (job : Job) (tenant_id : String)
    (hcalm : ¬Fails flags) :
    Twins Mirrored P (run_started .in_memory env given job tenant_id flags)
      (run_started .postgres env given job tenant_id flags) (fun _ _ => True) := by
  obtain ⟨hforce, htransient⟩ := not_or.1 hcalm
  unfold run_started
  rw [if_neg hforce, if_neg htransient, if_neg hforce, if_neg htransient]
  exact run_by_type.twins given job tenant_id

theorem run_job_once.mirrored {flags : RunFlags} {given : Given} {job_id tenant_id : String}
    (h : Mirrored s t) (hfits : Fails flags → ¬Runs s job_id tenant_id) :
    Mirrored ((run_job_once .in_memory env given job_id tenant_id flags).final s)
      ((run_job_once .postgres env given job_id tenant_id flags).final t) := by
  obtain ⟨hresult, hfinal, hbegun⟩ :=
    begin_run.twins (P := fun _ => True) given job_id tenant_id s t h trivial
  unfold run_job_once
  rcases hr : (begin_run .in_memory given job_id tenant_id).result s with e | job
  · rw [final_bind_error hr, final_bind_error (hresult.symm.trans hr)]
    exact hfinal
  · rw [final_bind hr, final_bind (hresult.symm.trans hr)]
    have hruns := (begin_run.returns_iff s given job_id tenant_id).1 ⟨job, hr⟩
    have hcalm : ¬Fails flags := fun hfails => hfits hfails hruns
    exact (run_started.twins (P := fun _ => True) given job tenant_id hcalm _ _ hfinal trivial).2.1

theorem run_job_once.parts {flags : RunFlags} {given : Given} {job_id tenant_id : String}
    (h : Mirrored s t) (hfails : Fails flags) (hruns : Runs s job_id tenant_id) :
    TellApart ((run_job_once .in_memory env given job_id tenant_id flags).final s)
      ((run_job_once .postgres env given job_id tenant_id flags).final t) := by
  obtain ⟨hresult, hfinal, hbegun⟩ :=
    begin_run.twins (P := fun _ => True) given job_id tenant_id s t h trivial
  obtain ⟨job, hr⟩ := (begin_run.returns_iff s given job_id tenant_id).2 hruns
  unfold run_job_once
  rw [final_bind hr, final_bind (hresult.symm.trans hr)]
  exact run_started.parts given job hfails _ _ hfinal (hbegun job hr)

theorem cancel_job.mirrored {job_id tenant_id : String} (h : Mirrored s t)
    (hfits : ¬Cancels s job_id tenant_id) :
    Mirrored ((cancel_job .in_memory job_id tenant_id).final s)
      ((cancel_job .postgres job_id tenant_id).final t) := by
  have hcancel : Twins Mirrored (fun s => ¬Cancels s job_id tenant_id)
      (cancel_job .in_memory job_id tenant_id) (cancel_job .postgres job_id tenant_id)
      (fun _ _ => True) := by
    refine (require_job.twins job_id (some tenant_id)).bind fun job => ?_
    refine twins_given (c := job.status = .succeeded ∨ job.status = .failed) ?_ fun hended => ?_
    · rintro s ⟨hfits, hfound⟩
      by_contra hopen
      exact hfits ⟨job, hfound.stored, hfound.listed.tenant tenant_id rfl, hopen⟩
    · rw [if_pos hended]
      exact twins_raise _
  exact (hcancel s t h hfits).2.1

theorem FitsTheTable.mirrored (h : Mirrored s t) {call : Call} (hfits : FitsTheTable s call) :
    Mirrored ((call.prog .in_memory env).final s) ((call.prog .postgres env).final t) := by
  cases call with
  | create new =>
    exact h.put ⟨hfits, rfl, rfl, rfl⟩
  | get_job_for_tenant job_id tenant_id =>
    show Mirrored ((quiet _).final s) ((quiet _).final t)
    rw [quiet_final, quiet_final]
    exact (get_job_for_tenant.twins (P := fun _ => True) job_id tenant_id s t h trivial).2.1
  | run_job_once job_id tenant_id flags given =>
    show Mirrored ((quiet _).final s) ((quiet _).final t)
    rw [quiet_final, quiet_final]
    exact run_job_once.mirrored h hfits
  | transition_job_status job_id new_status tenant_id =>
    show Mirrored ((quiet _).final s) ((quiet _).final t)
    rw [quiet_final, quiet_final]
    exact (transition_job_status.twins (P := fun _ => True) job_id new_status tenant_id s t h trivial).2.1
  | cancel_job job_id tenant_id =>
    show Mirrored ((quiet _).final s) ((quiet _).final t)
    rw [quiet_final, quiet_final]
    exact cancel_job.mirrored h hfits

theorem tell_apart_of_no_fit (h : Mirrored s t) {call : Call} (hfits : ¬FitsTheTable s call) :
    TellApart ((call.prog .in_memory env).final s) ((call.prog .postgres env).final t) := by
  cases call with
  | create new =>
    have htenant : new.job.tenant_id = "" := not_not.1 hfits
    exact persist_job.parts_default (P := fun _ => True) htenant s t h trivial
  | get_job_for_tenant job_id tenant_id => exact absurd trivial hfits
  | run_job_once job_id tenant_id flags given =>
    obtain ⟨hfails, hruns⟩ := Classical.not_imp.1 hfits
    show TellApart ((quiet _).final s) ((quiet _).final t)
    rw [quiet_final, quiet_final]
    exact run_job_once.parts h hfails (not_not.1 hruns)
  | transition_job_status job_id new_status tenant_id => exact absurd trivial hfits
  | cancel_job job_id tenant_id =>
    obtain ⟨job, hstored, htenant, hopen⟩ := not_not.1 hfits
    show TellApart ((quiet _).final s) ((quiet _).final t)
    rw [quiet_final, quiet_final]
    exact cancel_job.parts h hstored htenant hopen

/-- In every sequence of calls, both stores tell the same of each job after
each call exactly when every call fits the table. -/
theorem job_views_agree_iff (env : Env) (calls : List Call) :
    Alike (machine .in_memory env) (machine .postgres env) calls ↔
      Throughout (machine .in_memory env) FitsTheTable calls := by
  refine alike_iff (fun _ => Mirrored) FitsTheTable mirrored_empty ?_ ?_
  · intro before call _ hmirrored
    constructor
    · intro hanswer
      by_contra hfits
      exact tell_apart_of_no_fit hmirrored hfits hanswer
    · intro hfits
      exact views_eq (hfits.mirrored hmirrored)
  · intro before call _ hmirrored hfits
    rw [Machine.after_concat, Machine.after_concat]
    exact hfits.mirrored hmirrored

/-! A run that is retried once. -/

def new_job : NewJob where
  job_id := "job_1"
  job_type := .parse
  thread_id := "thr_1"
  tenant_id := "tenant"
  trace_id := "trace"
  resource_type := "document"
  resource_id := "doc_1"
  payload := .parse "doc_1" "trace" "tenant"

def retried_once : Call :=
  .run_job_once "job_1" "tenant" ⟨false, true, none⟩ ⟨"thr_2", 1000, 2000, .finished⟩

theorem retry_is_not_in_the_table :
    ¬Alike (machine .in_memory calm_env) (machine .postgres calm_env)
      [.create new_job, retried_once] := by
  intro halike
  have hanswer := halike [.create new_job] retried_once (List.prefix_refl _)
  have hat := congrFun (congrFun hanswer "job_1") "tenant"
  have herrors := congrArg (fun r : Except PyErr (Option JobView) =>
    r.toOption.bind fun found => found.map fun view => view.errors.length) hat
  revert herrors
  decide +kernel

end bid_evaluation.job_row_laws
