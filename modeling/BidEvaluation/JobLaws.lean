-- The laws of the job state machine: every change of a status is an edge
-- of `ALLOWED_TRANSITIONS` or the cancel of a job that is not at its end,
-- and a job at its end stays there.
import BidEvaluation.OpSteps

open dict_lib stepwise bid_evaluation.values bid_evaluation.core bid_evaluation.operations
  bid_evaluation.frames bid_evaluation.job_steps bid_evaluation.run_steps
  bid_evaluation.op_steps

namespace bid_evaluation.job_laws

variable {env : Env} {op : Op} {w w' : World}

/-! ## One write -/

/-- The statuses of a job at its end. -/
def Terminal (status : JobStatus) : Prop := status = .succeeded ∨ status = .failed

/-- How the status of one job can change in a write of an operation. -/
inductive StatusChange (op : Op) (job job' : Job) : Prop where
  | same (h : job'.status = job.status)
  | edge (h : job'.status ∈ ALLOWED_TRANSITIONS job.status)
  | cancelled (tenant_id : String) (hop : op = .cancel_job job.job_id tenant_id)
      (hopen : ¬ Terminal job.status) (hfailed : job'.status = .failed)
      (hcode : job'.error_code = some "JOB_CANCELLED")

/-- No job is lost, each status changes as it may, and a new job starts in
the queue. -/
structure StatusStep (op : Op) (w w' : World) : Prop where
  kept : ∀ id job, w.store.jobs.get? id = some job →
    ∃ job', w'.store.jobs.get? id = some job' ∧ StatusChange op job job'
  new : ∀ id job', w'.store.jobs.get? id = some job' → w.store.jobs.get? id = none →
    job'.status = .queued

theorem status_step_of_same (h : w'.store.jobs = w.store.jobs) : StatusStep op w w' := by
  refine ⟨fun id job hjob => ⟨job, h ▸ hjob, .same rfl⟩, fun id job' hjob' hnone => ?_⟩
  rw [h, hnone] at hjob'
  cases hjob'

/-- A write of one job that is stored. -/
theorem status_step_of_put {job job' : Job} (hstored : Stored w job)
    (hchange : StatusChange op job job') (hid : job'.job_id = job.job_id)
    (hjobs : w'.store.jobs = w.store.jobs.put job') : StatusStep op w w' := by
  refine ⟨fun id found hfound => ?_, fun id found hfound hnone => ?_⟩
  · rw [hjobs, Table.get?_put]
    split
    · rename_i heq
      rw [heq, hid] at hfound
      cases hstored.symm.trans hfound
      exact ⟨job', rfl, hchange⟩
    · exact ⟨found, hfound, .same rfl⟩
  · rw [hjobs, Table.get?_put] at hfound
    split at hfound
    · rename_i heq
      rw [heq, hid] at hnone
      exact absurd (hstored.symm.trans hnone) (by simp)
    · rw [hnone] at hfound
      cases hfound

theorem status_step_of_new {job : Job} (hnone : w.store.jobs.get? job.job_id = none)
    (hqueued : job.status = .queued) (hjobs : w'.store.jobs = w.store.jobs.put job) :
    StatusStep op w w' := by
  refine ⟨fun id found hfound => ?_, fun id found hfound hno => ?_⟩
  · rw [hjobs, Table.get?_put]
    split
    · rename_i heq
      rw [heq, hnone] at hfound
      cases hfound
    · exact ⟨found, hfound, .same rfl⟩
  · rw [hjobs, Table.get?_put] at hfound
    split at hfound
    · cases hfound
      exact hqueued
    · rw [hno] at hfound
      cases hfound

theorem status_step {guard : World → Job → Prop} (h : OpStep env guard op w w') :
    StatusStep op w w' := by
  cases h with
  | step h =>
    cases h.jobs with
    | same hjobs => exact status_step_of_same hjobs
    | created job hid hnone hqueued hguard hjobs => exact status_step_of_new hnone hqueued hjobs
    | noted job job' hstored hsame hstatus hjobs =>
      exact status_step_of_put hstored (.same hstatus) hsame.job_id hjobs
    | moved job job' hstored hsame hedge hguard hjobs =>
      exact status_step_of_put hstored (.edge hedge) hsame.job_id hjobs
  | cancelled job_id tenant_id hop h =>
    obtain ⟨job, rfl, hstored, hsucceeded, hfailed, rfl⟩ := h
    have hchange : StatusChange op job (cancelled_job job) :=
      .cancelled tenant_id hop (not_or.2 ⟨hsucceeded, hfailed⟩) rfl rfl
    exact status_step_of_put hstored hchange rfl rfl

/-! ## Terminal statuses -/

theorem no_edge_out {status status' : JobStatus} (h : Terminal status) :
    status' ∉ ALLOWED_TRANSITIONS status := by
  rcases h with rfl | rfl <;> simp [ALLOWED_TRANSITIONS]

/-- The job is at its end with a certain status. -/
def EndedAs (id : String) (status : JobStatus) (w : World) : Prop :=
  ∃ job, w.store.jobs.get? id = some job ∧ job.status = status

theorem ended_step {id : String} {status : JobStatus} (hend : Terminal status)
    (h : StatusStep op w w') (hw : EndedAs id status w) : EndedAs id status w' := by
  obtain ⟨job, hjob, rfl⟩ := hw
  obtain ⟨job', hjob', hchange⟩ := h.kept id job hjob
  refine ⟨job', hjob', ?_⟩
  cases hchange with
  | same hsame => exact hsame
  | edge hedge => exact absurd hedge (no_edge_out hend)
  | cancelled tenant_id hop hopen hfailed hcode => exact absurd hend hopen

/-! ## Runs -/

/-- Any move and any new job. -/
def anyJob : World → Job → Prop := fun _ _ => True

theorem any_free : FreeMoves anyJob := fun _ _ _ _ => trivial

theorem any_new : ∀ w job, job.status = .queued → anyJob w job := fun _ _ _ => trivial

theorem permits_any (op : Op) : Permits env anyJob w op := by
  cases op <;> simp [Permits, anyJob, DlqGuard]

theorem named_reached {allowed : World → Op → Prop} (h : Reached env allowed w) :
    Named env w := by
  induction h with
  | start => exact named_start
  | step h op hop ih =>
    exact named_perform any_new any_free ih op (permits_any op)

theorem op_status_steps (hn : Named env w) (op : Op) :
    Steps (StatusStep op) w ((op.act env).written w) :=
  (steps_of_op any_new any_free hn op (permits_any op)).mono fun _ _ h => status_step h

/-- From any world of a run, each later state has the job still at its end. -/
theorem ended_history {id : String} {status : JobStatus} (hend : Terminal status)
    (ops : List Op) (hn : Named env w) (hw : EndedAs id status w) :
    ∀ t ∈ history env w ops, EndedAs id status t := by
  induction ops generalizing w with
  | nil => simp [history]
  | cons op rest ih =>
    have hsteps := op_status_steps hn op
    have hn' : Named env (perform env w op) :=
      named_perform any_new any_free hn op (permits_any op)
    intro t ht
    rcases List.mem_append.1 ht with hin | hin
    · exact hsteps.invariant (fun _ _ h => ended_step hend h) hw t hin
    · exact ih hn' (hsteps.invariant_last (fun _ _ h => ended_step hend h) hw) t hin

/-- A job at its end is there after any later operations too. -/
theorem ended_after {id : String} {status : JobStatus} (hend : Terminal status) (ops : List Op)
    (hn : Named env w) (hw : EndedAs id status w) : EndedAs id status (after env w ops) := by
  induction ops generalizing w with
  | nil => exact hw
  | cons op rest ih =>
    have hn' : Named env (perform env w op) :=
      named_perform any_new any_free hn op (permits_any op)
    exact ih hn' ((op_status_steps hn op).invariant_last (fun _ _ h => ended_step hend h) hw)

/-! ## What a job works on -/

/-- The tenant, the type and the resource of a job never change. -/
structure SameWork (job job' : Job) : Prop where
  tenant_id : job'.tenant_id = job.tenant_id
  job_type : job'.job_type = job.job_type
  resource_id : job'.resource_id = job.resource_id

/-- The job is there, with the work that it was made for. -/
def Kept (id : String) (job : Job) (w : World) : Prop :=
  ∃ job', w.store.jobs.get? id = some job' ∧ SameWork job job'

theorem kept_put {id : String} {job old new : Job} (hkept : Kept id job w)
    (hstored : Stored w old) (hid : new.job_id = old.job_id) (hsame : SameWork old new)
    (hjobs : w'.store.jobs = w.store.jobs.put new) : Kept id job w' := by
  obtain ⟨found, hfound, hwork⟩ := hkept
  unfold Kept
  rw [hjobs, Table.get?_put]
  split
  · rename_i heq
    rw [heq, hid] at hfound
    cases hstored.symm.trans hfound
    exact ⟨new, rfl, hsame.tenant_id.trans hwork.tenant_id, hsame.job_type.trans hwork.job_type,
      hsame.resource_id.trans hwork.resource_id⟩
  · exact ⟨found, hfound, hwork⟩

theorem kept_step {guard : World → Job → Prop} {id : String} {job : Job}
    (h : OpStep env guard op w w') (hkept : Kept id job w) : Kept id job w' := by
  cases h with
  | step h =>
    cases h.jobs with
    | same hjobs =>
      unfold Kept
      rw [hjobs]
      exact hkept
    | created new hid hnone hqueued hguard hjobs =>
      obtain ⟨found, hfound, hwork⟩ := hkept
      refine ⟨found, ?_, hwork⟩
      rw [hjobs, Table.get?_put, if_neg]
      · exact hfound
      · rintro rfl
        rw [hnone] at hfound
        cases hfound
    | noted old new hstored hsame hstatus hjobs =>
      exact kept_put hkept hstored hsame.job_id
        ⟨hsame.tenant_id, hsame.job_type, hsame.resource_id⟩ hjobs
    | moved old new hstored hsame hedge hguard hjobs =>
      exact kept_put hkept hstored hsame.job_id
        ⟨hsame.tenant_id, hsame.job_type, hsame.resource_id⟩ hjobs
  | cancelled job_id tenant_id hop h =>
    obtain ⟨old, rfl, hstored, hsucceeded, hfailed, rfl⟩ := h
    have hid : (cancelled_job old).job_id = old.job_id := rfl
    exact kept_put hkept hstored hid ⟨rfl, rfl, rfl⟩ rfl

/-- Whatever happens later, a job keeps its work. -/
theorem kept_after {id : String} {job : Job} (ops : List Op) (hn : Named env w)
    (hkept : Kept id job w) : Kept id job (after env w ops) ∧ Named env (after env w ops) := by
  induction ops generalizing w with
  | nil => exact ⟨hkept, hn⟩
  | cons op rest ih =>
    have hsteps := steps_of_op any_new any_free hn op (permits_any op)
    have hn' : Named env (perform env w op) :=
      named_perform any_new any_free hn op (permits_any op)
    exact ih hn' (hsteps.invariant_last (fun _ _ h hk => kept_step h hk) hkept)

/-! ## The laws -/

/-- After any operations, each write of the next operation changes statuses
only along the edges or by a cancel, and a job at its end stays as it is in
every state that any later operations write. -/
theorem jobs_follow_the_transitions (env : Env) (ops : List Op) :
    (∀ op, Steps (StatusStep op) (after env World.start ops)
      ((op.act env).written (after env World.start ops))) ∧
    (∀ id job, (after env World.start ops).store.jobs.get? id = some job →
      Terminal job.status → ∀ later, ∀ t ∈ history env (after env World.start ops) later,
        ∃ job', t.store.jobs.get? id = some job' ∧ job'.status = job.status) := by
  have hn : Named env (after env World.start ops) := named_reached (reached_after env ops)
  refine ⟨fun op => op_status_steps hn op, fun id job hjob hend later t ht => ?_⟩
  exact ended_history hend later hn ⟨job, hjob, rfl⟩ t ht

end bid_evaluation.job_laws
