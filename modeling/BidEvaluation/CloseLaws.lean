-- The laws of the end of a resumed evaluation. The resume is the work of
-- another job, and the run of that job writes no job but its own: whether the
-- evaluation is closed was decided before.
import BidEvaluation.EditLaws
import BidEvaluation.ReportOwners
import BidEvaluation.WorkflowState

open dict_lib stepwise bid_evaluation.values bid_evaluation.core bid_evaluation.store_ops
  bid_evaluation.store_workflow bid_evaluation.store_admin bid_evaluation.store_eval
  bid_evaluation.langgraph_runtime bid_evaluation.job_run bid_evaluation.operations
  bid_evaluation.frames bid_evaluation.job_steps bid_evaluation.run_steps
  bid_evaluation.op_steps bid_evaluation.job_laws bid_evaluation.endings
  bid_evaluation.review_laws bid_evaluation.announce_laws bid_evaluation.edit_laws
  bid_evaluation.agreement_laws bid_evaluation.report_owners bid_evaluation.workflow_state

namespace bid_evaluation.close_laws

variable {env : Env} {op : Op} {w w' : World} {evaluation_id tenant_id id : String}

/-! ## The first job on an evaluation -/

theorem SameWork.refl (job : Job) : SameWork job job := ⟨rfl, rfl, rfl⟩

/-- A job that is written with its work keeps its place, so the first job on
an evaluation stays the first. -/
theorem find_job_put {job first : Job} (hjobs : w'.store.jobs = w.store.jobs.put job)
    (hwork : ∀ old, w.store.jobs.get? job.job_id = some old → SameWork old job)
    (hfirst : find_job_by_evaluation_id w.store evaluation_id tenant_id = some first) :
    find_job_by_evaluation_id w'.store evaluation_id tenant_id =
      some (if first.job_id = job.job_id then job else first) := by
  unfold find_job_by_evaluation_id at hfirst ⊢
  rw [hjobs]
  refine Table.find?_put (fun old hold => ?_) hfirst
  have hsame := hwork old hold
  rw [hsame.resource_id, hsame.tenant_id]

theorem find_job_of_same (h : w'.store.jobs = w.store.jobs) :
    find_job_by_evaluation_id w'.store evaluation_id tenant_id =
      find_job_by_evaluation_id w.store evaluation_id tenant_id := by
  unfold find_job_by_evaluation_id
  rw [h]

/-- The first job that is found is stored. -/
theorem find_job_stored {first : Job}
    (h : find_job_by_evaluation_id w.store evaluation_id tenant_id = some first) :
    Stored w first :=
  (Table.mem_values_iff _ _).1 (List.mem_of_find?_eq_some h)

/-- Some job is the first on an evaluation that has a job. -/
theorem find_job_exists {job : Job} (hjob : w.store.jobs.get? id = some job)
    (hresource : job.resource_id = evaluation_id) (htenant : job.tenant_id = tenant_id) :
    ∃ first, find_job_by_evaluation_id w.store evaluation_id tenant_id = some first := by
  have hkey : job.job_id = id := Table.key_of_get? _ hjob
  apply Option.isSome_iff_exists.1
  unfold find_job_by_evaluation_id
  rw [List.find?_isSome]
  exact ⟨job, (Table.mem_values_iff _ _).2 (hkey.symm ▸ hjob), by simp [hresource, htenant]⟩

/-- The job with this name is the first of the tenant on the evaluation. -/
def FirstIs (evaluation_id tenant_id id : String) (w : World) : Prop :=
  ∃ first, find_job_by_evaluation_id w.store evaluation_id tenant_id = some first ∧
    first.job_id = id

theorem first_put {job : Job} (hjobs : w'.store.jobs = w.store.jobs.put job)
    (hwork : ∀ old, w.store.jobs.get? job.job_id = some old → SameWork old job)
    (h : FirstIs evaluation_id tenant_id id w) : FirstIs evaluation_id tenant_id id w' := by
  obtain ⟨first, hfirst, rfl⟩ := h
  refine ⟨_, find_job_put hjobs hwork hfirst, ?_⟩
  split
  · rename_i heq
    exact heq.symm
  · rfl

theorem first_rewritten {old job : Job} (hstored : Stored w old)
    (hid : job.job_id = old.job_id) (hsame : SameWork old job)
    (hjobs : w'.store.jobs = w.store.jobs.put job) (h : FirstIs evaluation_id tenant_id id w) :
    FirstIs evaluation_id tenant_id id w' := by
  refine first_put hjobs (fun found hfound => ?_) h
  rw [hid] at hfound
  cases hstored.symm.trans hfound
  exact hsame

theorem first_step {guard : World → Job → Prop} (h : OpStep env guard op w w')
    (hfirst : FirstIs evaluation_id tenant_id id w) : FirstIs evaluation_id tenant_id id w' := by
  cases h with
  | step h =>
    cases h.jobs with
    | same hjobs =>
      unfold FirstIs
      rw [find_job_of_same hjobs]
      exact hfirst
    | created new hid hnone hqueued hguard hjobs =>
      refine first_put hjobs (fun old hold => ?_) hfirst
      rw [hnone] at hold
      cases hold
    | noted old new hstored hsame hstatus hjobs =>
      exact first_rewritten hstored hsame.job_id
        ⟨hsame.tenant_id, hsame.job_type, hsame.resource_id⟩ hjobs hfirst
    | moved old new hstored hsame hedge hguard hjobs =>
      exact first_rewritten hstored hsame.job_id
        ⟨hsame.tenant_id, hsame.job_type, hsame.resource_id⟩ hjobs hfirst
  | cancelled job_id tenant_id hop h =>
    obtain ⟨old, rfl, hstored, hsucceeded, hfailed, rfl⟩ := h
    have hid : (cancelled_job old).job_id = old.job_id := rfl
    exact first_rewritten hstored hid ⟨rfl, rfl, rfl⟩ rfl hfirst

/-- Whatever happens later, the first job stays the first. -/
theorem first_after (ops : List Op) (hn : Named env w)
    (h : FirstIs evaluation_id tenant_id id w) :
    FirstIs evaluation_id tenant_id id (after env w ops) := by
  induction ops generalizing w with
  | nil => exact h
  | cons op rest ih =>
    have hsteps := steps_of_op any_new any_free hn op (permits_any op)
    have hn' : Named env (perform env w op) :=
      named_perform any_new any_free hn op (permits_any op)
    exact ih hn' (hsteps.invariant_last (fun _ _ hstep hf => first_step hstep hf) h)

/-! ## The run of a resume job -/

/-- No other job was written, so neither was a first job that is another. -/
structure Alone (job_id : String) (w w' : World) : Prop where
  others : ∀ id, id ≠ job_id → w'.store.jobs.get? id = w.store.jobs.get? id
  first : ∀ evaluation_id tenant_id first,
    find_job_by_evaluation_id w.store evaluation_id tenant_id = some first →
    first.job_id ≠ job_id →
    find_job_by_evaluation_id w'.store evaluation_id tenant_id = some first

theorem Alone.refl (job_id : String) (w : World) : Alone job_id w w :=
  ⟨fun _ _ => rfl, fun _ _ _ h _ => h⟩

theorem Alone.trans {job_id : String} {a b c : World} (h : Alone job_id a b)
    (h' : Alone job_id b c) : Alone job_id a c :=
  ⟨fun other hne => (h'.others other hne).trans (h.others other hne),
    fun e t first hfirst hne => h'.first e t first (h.first e t first hfirst hne) hne⟩

theorem alone_of_same {job_id : String} (h : w'.store.jobs = w.store.jobs) :
    Alone job_id w w' :=
  ⟨fun _ _ => by rw [h], fun _ _ _ hfirst _ => (find_job_of_same h).trans hfirst⟩

theorem keeps_alone {K : List Part} {m : Act α} {job_id : String} (h : Touches K m)
    (hK : .jobs ∉ K) : Keeps (Alone job_id) m :=
  h.mono fun _ _ ho => alone_of_same (ho.frame.same .jobs hK)

theorem persist_job.alone {old job : Job} (hstored : Stored w old)
    (hid : job.job_id = old.job_id) (hsame : SameWork old job) :
    Meets (Alone old.job_id) (persist_job job) w (fun r _ => r = .ok job) := by
  simp only [persist_job, update, meets_bind, meets_write, then_ok, meets_pure, and_true]
  refine ⟨fun other hne => ?_, fun e t first hfirst hne => ?_⟩
  · exact (Table.get?_put _ _ _).trans (if_neg (hid.symm ▸ hne))
  · refine (find_job_put rfl (fun found hfound => ?_) hfirst).trans ?_
    · rw [hid] at hfound
      cases hstored.symm.trans hfound
      exact hsame
    · rw [if_neg (hid.symm ▸ hne)]

theorem transition.alone (env : Env) (job_id : String) (status : JobStatus)
    (tenant_id : Option String) :
    Keeps (Alone job_id) (transition_job_status env job_id status tenant_id) := by
  refine keeps_bind ?_ fun _ => keeps_bind (keeps_alone (K := []) (touches_save_state env)
    (by simp)) fun _ => keeps_pure _
  rw [keeps_iff]
  intro w
  refine (require_job.spec w job_id tenant_id).bind ?_ (fun _ _ _ => trivial)
  rintro job t ⟨rfl, hjob⟩
  obtain ⟨rfl, hv⟩ := (hjob job).1 rfl
  rw [meets_ite, meets_ite]
  refine ⟨fun _ => meets_pure.2 trivial, fun _ => ⟨fun _ => ?_, fun _ => ?_⟩⟩
  · exact (keeps_raise _).meets t
  · have hid : (moved job status).job_id = job.job_id := rfl
    exact (persist_job.alone hv.stored hid ⟨rfl, rfl, rfl⟩).post fun _ _ _ => trivial

theorem finish.alone (env : Env) (job : Job) (status : JobStatus) (tenant_id thread_id : String)
    (evaluation_id : Option String) :
    Keeps (Alone job.job_id) (finish env job status tenant_id thread_id evaluation_id) :=
  keeps_bind (transition.alone env job.job_id status (some tenant_id)) fun _ => keeps_pure _

theorem run_resume_job.alone (env : Env) (job : Job) (tenant_id : String) :
    Keeps (Alone job.job_id) (run_resume_job env job tenant_id) := by
  have hthread : Keeps (Alone job.job_id) (thread_of env job "resume") :=
    keeps_alone (K := []) (touches_thread_of env job "resume") (by simp)
  have hcompat : ∀ thread_id, Keeps (Alone job.job_id)
      (run_resume_compat env job tenant_id thread_id) := fun thread_id =>
    keeps_bind (keeps_alone (K := []) (touches_checkpoints env _ _ _ _) (by simp))
      fun _ => finish.alone env job _ _ _ _
  have hinvoke : ∀ id, Keeps (Alone job.job_id) (invoke_resume env id) := fun id =>
    keeps_alone (K := graphParts) (touches_invoke_resume env (by decide) (by decide) (by decide) id)
      (by decide)
  have hgraph : Keeps (Alone job.job_id) (run_resume_graph env job tenant_id) := by
    refine keeps_bind hthread fun thread_id => keeps_bind (keeps_catching (hinvoke _) fun e => ?_)
      fun _ => finish.alone env job _ _ _ _
    split
    · exact keeps_raise _
    · exact keeps_raise _
  have hworkflow : Keeps (Alone job.job_id) (run_resume_workflow env job tenant_id) := by
    refine keeps_bind hthread fun thread_id => keeps_bind (keeps_lift _) fun mode => ?_
    cases mode with
    | compat => exact hcompat thread_id
    | langgraph =>
      exact keeps_catching hgraph fun e => keeps_ite (keeps_raise _) (hcompat thread_id)
  exact keeps_bind hworkflow fun result => keeps_bind
    (keeps_alone (K := []) (touches_checkpoint env _ _ _ _ _ _) (by simp)) fun _ => keeps_pure _

theorem begin_run.alone (env : Env) (job_id tenant_id : String) :
    Keeps (Alone job_id) (begin_run env job_id tenant_id) := by
  have hmove : ∀ job : Job, Keeps (Alone job.job_id) (move_to_running env job tenant_id) :=
    fun job => keeps_ite (keeps_bind (transition.alone env _ _ _) fun running =>
      keeps_bind (keeps_alone (K := []) (touches_checkpoint env _ _ _ _ _ _) (by simp))
        fun _ => keeps_pure _) (keeps_pure _)
  have hrest : ∀ job : Job, Keeps (Alone job.job_id) (do
      let running ← move_to_running env job tenant_id
      start_parse env running tenant_id
      require_running running
      pure running) := fun job =>
    keeps_bind (hmove job) fun running =>
      keeps_bind (keeps_alone (K := []) (touches_start_parse env _ _) (by simp)) fun _ =>
        keeps_bind (keeps_ite (keeps_pure _) (keeps_raise _)) fun _ => keeps_pure _
  rw [keeps_iff]
  intro w
  refine (require_job.spec w job_id (some tenant_id)).bind ?_ (fun _ _ _ => trivial)
  rintro job t ⟨rfl, hjob⟩
  obtain ⟨rfl, hv⟩ := (hjob job).1 rfl
  unfold ensure_thread
  rw [meets_bind, meets_ite]
  refine ⟨fun _ => ?_, fun _ => ?_⟩
  · have hname : Keeps (Alone job.job_id) (new_thread_id env "job") :=
      keeps_alone (K := []) (touches_new_thread_id env "job") (by simp)
    have hframe := (touches_new_thread_id (K := []) env "job").frame t
    refine (hname.ends t).bind ?_ (fun _ _ _ => trivial)
    rintro thread_id _ ⟨-, rfl⟩
    have hid : ({ job with thread_id := thread_id } : Job).job_id = job.job_id := rfl
    refine (persist_job.alone (hv.stored.frame hframe (by simp)) hid ⟨rfl, rfl, rfl⟩).post ?_
    rintro _ t' rfl
    exact (hrest { job with thread_id := thread_id }).meets t'
  · rw [meets_pure]
    exact (hrest job).meets t

/-- A run of a resume job that is not told to fail. -/
theorem resume_run.alone {job : Job} {flags : RunFlags} (env : Env)
    (hv : Visible w job (some tenant_id)) (hstart : Startable job.status)
    (htype : job.job_type = .resume) (hflags : ¬ ToldToFail flags) :
    Alone job.job_id w ((run_job_once env job.job_id tenant_id flags).final w) := by
  have hspec : Meets (Step env anyJob) (begin_run env job.job_id tenant_id) w _ :=
    begin_run.spec any_free w job.job_id tenant_id
  have hbegin := (begin_run.alone env job.job_id tenant_id).final (Alone.refl _)
    (fun _ _ _ => Alone.trans) w
  have hends := (keeps_true (begin_run env job.job_id tenant_id)).ends w
  have hrun : Meets AnyStep (run_job_once env job.job_id tenant_id flags) w
      (fun _ w' => Alone job.job_id w w') := by
    unfold run_job_once
    refine any_saving (((meets_any hspec).and hends).bind ?_ ?_) ?_
    · rintro job' t ⟨⟨-, found, hid, hfound, -, hb, -⟩, -, rfl⟩
      cases hv.stored.unique hfound.stored hid
      have hresume : run_started env job' tenant_id flags = run_resume_job env job' tenant_id := by
        rw [ToldToFail, not_or] at hflags
        unfold run_started run_by_type
        rw [if_neg hflags.1, if_neg hflags.2, hb.same.job_type, htype]
      have hkeeps := run_resume_job.alone env job' tenant_id
      rw [hb.same.job_id] at hkeeps
      rw [hresume]
      exact ⟨keeps_true _ _, hbegin.trans (hkeeps.final (Alone.refl _) (fun _ _ _ => Alone.trans) _)⟩
    · rintro e t ⟨⟨-, hno⟩, -⟩
      exact absurd hstart ((hno job rfl hv.stored).2 hv)
    · intro result t t' h hf
      exact h.trans (alone_of_same (hf.same .jobs (by simp)))
  exact hrun.2

/-! ## Closed evaluations -/

/-- The job of the evaluation waits for no reviewer, and the tenant reads a
final status. -/
structure Closed (job_id evaluation_id tenant_id : String) (w : World) : Prop where
  decided : ∃ job, w.store.jobs.get? job_id = some job ∧ job.status ≠ .needs_manual_decision
  reported : ∃ state status, (get_workflow_state evaluation_id tenant_id).result w =
    .ok (some state) ∧ state.output.status = some status ∧ Terminal status

/-- The status of the job satisfies `P`, and the first job on the evaluation
is at its end. -/
structure JobsAre (P : JobStatus → Prop) (job_id evaluation_id tenant_id : String) (w : World) :
    Prop where
  job : ∃ job, w.store.jobs.get? job_id = some job ∧ P job.status
  first : ∃ first, find_job_by_evaluation_id w.store evaluation_id tenant_id = some first ∧
    Terminal first.status

/-- The job waits for no reviewer, and the first job is at its end. -/
def JobsClosed : String → String → String → World → Prop :=
  JobsAre (fun status => status ≠ .needs_manual_decision)

/-- The job and the first job are at their ends. -/
def JobsEnded : String → String → String → World → Prop := JobsAre Terminal

theorem terminal_is_decided {status : JobStatus} (h : Terminal status) :
    status ≠ .needs_manual_decision := by
  rcases h with rfl | rfl <;> decide

theorem ended_is_closed {job_id : String} (h : JobsEnded job_id evaluation_id tenant_id w) :
    JobsClosed job_id evaluation_id tenant_id w := by
  obtain ⟨job, hjob, hend⟩ := h.job
  exact ⟨⟨job, hjob, terminal_is_decided hend⟩, h.first⟩

/-- In any world of a run, what the tenant reads is what the jobs say. -/
theorem closed_iff_jobs {job_id : String} {job : Job} (howned : Owned env w)
    (hkept : Kept job_id job w) (htype : job.job_type = .evaluation) :
    Closed job_id job.resource_id job.tenant_id w ↔
      JobsClosed job_id job.resource_id job.tenant_id w := by
  obtain ⟨now, hnow, hwork⟩ := hkept
  obtain ⟨report, hreport, howner⟩ :=
    howned.jobs job_id now hnow (hwork.job_type.trans htype)
  rw [hwork.resource_id] at hreport
  rw [hwork.tenant_id] at howner
  obtain ⟨state, hstate, hstatus⟩ := get_workflow_state.reads hreport howner
  constructor
  · rintro ⟨hdecided, state', status, hread, hsome, hend⟩
    rw [hstate] at hread
    cases hread
    rw [hstatus] at hsome
    obtain ⟨first, hfirst, rfl⟩ := Option.map_eq_some_iff.1 hsome
    exact ⟨hdecided, first, hfirst, hend⟩
  · rintro ⟨hdecided, first, hfirst, hend⟩
    rw [hfirst, Option.map_some] at hstatus
    exact ⟨hdecided, state, first.status, hstate, hstatus, hend⟩

/-- A write of another job changes nothing of it. -/
theorem Alone.jobs_are {P : JobStatus → Prop} {job_id resume_id : String} {t t' : World}
    (h : Alone resume_id t t') (hne : job_id ≠ resume_id)
    (hfirst : FirstIs evaluation_id tenant_id id t) (hother : id ≠ resume_id) :
    JobsAre P job_id evaluation_id tenant_id t' ↔ JobsAre P job_id evaluation_id tenant_id t := by
  obtain ⟨found, hfound, rfl⟩ := hfirst
  have hsame := h.others job_id hne
  have hfound' := h.first _ _ found hfound hother
  constructor
  · rintro ⟨⟨job, hjob, hstatus⟩, first, hf, hend⟩
    rw [hfound'] at hf
    exact ⟨⟨job, hsame ▸ hjob, hstatus⟩, first, hfound.trans hf, hend⟩
  · rintro ⟨⟨job, hjob, hstatus⟩, first, hf, hend⟩
    rw [hfound] at hf
    exact ⟨⟨job, hsame.trans hjob, hstatus⟩, first, hfound'.trans hf, hend⟩

/-- Jobs at their ends stay there, whatever happens later. -/
theorem ended_jobs_after {job_id : String} (h : JobsEnded job_id evaluation_id tenant_id w)
    (hn : Named env w) (ops : List Op) :
    JobsEnded job_id evaluation_id tenant_id (after env w ops) := by
  obtain ⟨⟨job, hjob, hend⟩, first, hfirst, hend'⟩ := h
  obtain ⟨job', hjob', hstatus⟩ := ended_after hend ops hn ⟨job, hjob, rfl⟩
  obtain ⟨found, hfound, hid⟩ := first_after ops hn ⟨first, hfirst, rfl⟩
  obtain ⟨first', hfirst', hstatus'⟩ :=
    ended_after hend' ops hn ⟨first, find_job_stored hfirst, rfl⟩
  have hsame : found = first' := by
    have hstored := find_job_stored hfound
    unfold Stored at hstored
    rw [hid, hfirst'] at hstored
    exact (Option.some.inj hstored).symm
  exact ⟨⟨job', hjob', hstatus ▸ hend⟩, found, hfound, hsame ▸ hstatus' ▸ hend'⟩

/-! ## The laws -/

/-- The run of the job of an evaluation has left it to a reviewer. -/
structure LeftToReviewer (env : Env) (w : World) (job_id tenant_id evaluation_id : String)
    (flags : RunFlags) : Prop where
  job : ∃ job, w.store.jobs.get? job_id = some job ∧ job.job_type = .evaluation ∧
    job.resource_id = evaluation_id
  ran : ∃ result, (run_job_once env job_id tenant_id flags).result w = .ok result ∧
    result.final_status = .needs_manual_decision

/-- The job of an evaluation of a tenant. -/
def EvaluationJob (evaluation_id tenant_id : String) (job : Job) : Prop :=
  job.job_type = .evaluation ∧ job.resource_id = evaluation_id ∧ job.tenant_id = tenant_id

/-- After that run the job of the tenant waits. -/
theorem LeftToReviewer.waits {job_id : String} {flags : RunFlags} (hn : Named env w)
    (h : LeftToReviewer env w job_id tenant_id evaluation_id flags) :
    ∃ job, ((run_job_once env job_id tenant_id flags).final w).store.jobs.get? job_id = some job ∧
      EvaluationJob evaluation_id tenant_id job ∧ job.status = .needs_manual_decision := by
  obtain ⟨result, hresult, hstatus⟩ := h.ran
  obtain ⟨found, hfound, htype, hresource⟩ := h.job
  have hspec : Meets (Step env anyJob) (run_job_once env job_id tenant_id flags) w _ :=
    run_job_once.spec any_free hn fun _ _ _ _ _ _ _ _ _ _ => trivial
  have hends := hspec.2
  rw [hresult] at hends
  rcases hends with ⟨job, rfl, hv, -, job', hb, hfinal, -⟩ | ⟨-, ⟨e, he⟩, -⟩
  · have hsame : job = found := Option.some.inj (hv.stored.symm.trans hfound)
    subst hsame
    have hstored : Stored _ job' := hb.stored
    unfold Stored at hstored
    rw [hb.same.job_id] at hstored
    exact ⟨job', hstored, ⟨hb.same.job_type.trans htype, hb.same.resource_id.trans hresource,
      hb.same.tenant_id.trans (hv.scope _ rfl)⟩, hfinal.trans hstatus⟩
  · cases he

/-- The new job has another name than the jobs before it, and keeps them. -/
theorem created_beside {job_id resume_id : String} {job : Job} (h : Creates w w' resume_id)
    (hjob : w.store.jobs.get? job_id = some job) :
    job_id ≠ resume_id ∧ w'.store.jobs.get? job_id = some job := by
  obtain ⟨new, rfl, hcreated⟩ := h
  have hne : job_id ≠ new.job_id := by
    rintro rfl
    rw [hcreated.fresh] at hjob
    cases hjob
  refine ⟨hne, ?_⟩
  rw [hcreated.jobs, Table.get?_put, if_neg hne, hjob]

theorem created_after_first {resume_id : String} (h : Creates w w' resume_id)
    (hfirst : FirstIs evaluation_id tenant_id id w) :
    id ≠ resume_id ∧ FirstIs evaluation_id tenant_id id w' := by
  obtain ⟨first, hfound, rfl⟩ := hfirst
  refine ⟨(created_beside h (find_job_stored hfound)).1, ?_⟩
  obtain ⟨new, rfl, hcreated⟩ := h
  refine first_put hcreated.jobs (fun old hold => ?_) ⟨first, hfound, rfl⟩
  rw [hcreated.fresh] at hold
  cases hold

/-- The job of the resume is there, beside the job of the evaluation and the
first job on it. -/
structure ResumeBeside (env : Env) (job_id evaluation_id tenant_id resume_id : String) (w : World) :
    Prop where
  owned : Owned env w
  kept : ∃ job, EvaluationJob evaluation_id tenant_id job ∧ Kept job_id job w
  other : job_id ≠ resume_id
  first : ∃ id, id ≠ resume_id ∧ FirstIs evaluation_id tenant_id id w
  resume : ∃ job, w.store.jobs.get? resume_id = some job ∧ job.job_type = .resume

theorem ResumeBeside.after {job_id resume_id : String}
    (h : ResumeBeside env job_id evaluation_id tenant_id resume_id w) (ops : List Op) :
    ResumeBeside env job_id evaluation_id tenant_id resume_id (after env w ops) := by
  obtain ⟨job, hjob, hkept⟩ := h.kept
  obtain ⟨first, hother, hfirst⟩ := h.first
  obtain ⟨made, hmade, htype⟩ := h.resume
  obtain ⟨⟨run, hrun, hwork⟩, -⟩ := kept_after ops h.owned.named ⟨made, hmade, SameWork.refl made⟩
  exact ⟨owned_from h.owned ops, ⟨job, hjob, (kept_after ops h.owned.named hkept).1⟩, h.other,
    ⟨first, hother, first_after ops h.owned.named hfirst⟩, run, hrun, hwork.job_type.trans htype⟩

/-- An accepted request makes its job beside them. -/
theorem accepted_beside {job_id resume_token resume_id : String} {job : Job}
    {payload : ResumePayload} (howned : Owned env w) (hjob : w.store.jobs.get? job_id = some job)
    (hevaluation : EvaluationJob evaluation_id tenant_id job)
    (haccepted : (execute_resume env evaluation_id resume_token payload).result w =
      .ok resume_id) :
    ResumeBeside env job_id evaluation_id tenant_id resume_id
      ((execute_resume env evaluation_id resume_token payload).final w) ∧
    ((execute_resume env evaluation_id resume_token payload).final w).store.jobs.get? job_id =
      some job := by
  have hspec : Meets (Step env anyJob) (execute_resume env evaluation_id resume_token payload) w
      (OnReturn fun job_id w' => Creates w w' job_id) :=
    execute_resume.spec any_new howned.named _ _ _
  have hcreates := hspec.2
  rw [haccepted] at hcreates
  obtain ⟨hother, hkept⟩ := created_beside hcreates hjob
  obtain ⟨first, hfirst⟩ := find_job_exists hjob hevaluation.2.1 hevaluation.2.2
  obtain ⟨made, hmade, htype, -⟩ :=
    ((execute_resume.requests env evaluation_id resume_token payload w).2 _ haccepted).job
  have howned' := owned_perform howned (.resume evaluation_id resume_token payload)
  refine ⟨⟨final_quiet (execute_resume env evaluation_id resume_token payload) w ▸ howned',
    ⟨job, hevaluation, job, hkept, SameWork.refl job⟩, hother,
    ⟨first.job_id, created_after_first hcreates ⟨first, hfirst, rfl⟩⟩, made, hmade, htype⟩, hkept⟩

/-- The run of the resume job to its success writes no other job. -/
theorem ResumeBeside.alone {job_id resume_id runner : String} {flags : RunFlags}
    (h : ResumeBeside env job_id evaluation_id tenant_id resume_id w)
    (hruns : RunsToSuccess env w resume_id runner flags) :
    Alone resume_id w ((run_job_once env resume_id runner flags).final w) := by
  obtain ⟨run, hrun, htype⟩ := h.resume
  have hid : run.job_id = resume_id := Table.key_of_get? _ hrun
  subst hid
  obtain ⟨hv, hstart, hflags⟩ := hruns.unforced hrun
  exact resume_run.alone env hv hstart htype hflags

theorem ResumeBeside.ran {job_id resume_id : String}
    (h : ResumeBeside env job_id evaluation_id tenant_id resume_id w) (runner : String)
    (flags : RunFlags) : ResumeBeside env job_id evaluation_id tenant_id resume_id
      ((run_job_once env resume_id runner flags).final w) :=
  final_quiet (run_job_once env resume_id runner flags) w ▸
    h.after [.run_job_once resume_id runner flags]

/-- Here what the tenant reads is what the jobs say. -/
theorem ResumeBeside.closed_iff {job_id resume_id : String}
    (h : ResumeBeside env job_id evaluation_id tenant_id resume_id w) :
    Closed job_id evaluation_id tenant_id w ↔ JobsClosed job_id evaluation_id tenant_id w := by
  obtain ⟨job, ⟨htype, rfl, rfl⟩, hkept⟩ := h.kept
  exact closed_iff_jobs h.owned hkept htype

/-- When the job of the resume has been run to its success, the evaluation is
closed exactly when the jobs had closed it before that run. If they had ended,
it stays closed. With nothing between the steps it never is closed. -/
theorem resumed_is_closed_iff (env : Env) (before waiting between : List Op)
    (job_id tenant_id evaluation_id resume_token resume_id runner : String)
    (flags flags' : RunFlags) (payload : ResumePayload) :
    let w₀ := after env World.start before
    let w := after env ((run_job_once env job_id tenant_id flags).final w₀) waiting
    let t := after env ((execute_resume env evaluation_id resume_token payload).final w) between
    let t' := (run_job_once env resume_id runner flags').final t
    LeftToReviewer env w₀ job_id tenant_id evaluation_id flags →
    (execute_resume env evaluation_id resume_token payload).result w = .ok resume_id →
    RunsToSuccess env t resume_id runner flags' →
    (Closed job_id evaluation_id tenant_id t' ↔ JobsClosed job_id evaluation_id tenant_id t) ∧
    (JobsEnded job_id evaluation_id tenant_id t →
      ∀ later, Closed job_id evaluation_id tenant_id (after env t' later)) ∧
    (waiting = [] → between = [] → ¬ Closed job_id evaluation_id tenant_id t') := by
  intro w₀ w t t' hleft haccepted hruns
  have howned₀ : Owned env w₀ := owned_from owned_start before
  have howned₁ : Owned env ((run_job_once env job_id tenant_id flags).final w₀) :=
    final_quiet (run_job_once env job_id tenant_id flags) w₀ ▸
      owned_perform howned₀ (.run_job_once job_id tenant_id flags)
  obtain ⟨job, hjob, hevaluation, hwaits⟩ := hleft.waits howned₀.named
  obtain ⟨jobw, hjobw, hwork⟩ := (kept_after waiting howned₁.named ⟨job, hjob, SameWork.refl job⟩).1
  have hevaluationw : EvaluationJob evaluation_id tenant_id jobw :=
    ⟨hwork.job_type.trans hevaluation.1, hwork.resource_id.trans hevaluation.2.1,
      hwork.tenant_id.trans hevaluation.2.2⟩
  obtain ⟨hmade, hkept⟩ := accepted_beside (owned_from howned₁ waiting) hjobw hevaluationw haccepted
  have hbeside : ResumeBeside env job_id evaluation_id tenant_id resume_id t := hmade.after between
  have hbeside' := hbeside.ran runner flags'
  have halone : Alone resume_id t t' := hbeside.alone hruns
  obtain ⟨first, hother, hfirst⟩ := hbeside.first
  have hiff : Closed job_id evaluation_id tenant_id t' ↔
      JobsClosed job_id evaluation_id tenant_id t :=
    hbeside'.closed_iff.trans (halone.jobs_are hbeside.other hfirst hother)
  refine ⟨hiff, fun hended later => ?_, ?_⟩
  · have hended' : JobsEnded job_id evaluation_id tenant_id t' :=
      (halone.jobs_are hbeside.other hfirst hother).2 hended
    exact (hbeside'.after later).closed_iff.2
      (ended_is_closed (ended_jobs_after hended' hbeside'.owned.named later))
  · rintro rfl rfl hclosed
    obtain ⟨now, hnow, hdecided⟩ := (hiff.1 hclosed).job
    have hsame : jobw = job := Option.some.inj (hjobw.symm.trans hjob)
    have hsame' : now = jobw := Option.some.inj (hnow.symm.trans hkept)
    rw [hsame', hsame] at hdecided
    exact hdecided hwaits

/-! ## An approved evaluation -/

/-- The reviewer has approved the bid, and the job of the resume is queued. -/
def approved : World :=
  (execute_resume compat_env "ev_" "rt_aaaaa" approve_payload).final awaiting

theorem bid_is_left : LeftToReviewer compat_env (registered compat_env) "job_a" "tenant" "ev_"
    RunFlags.default := by
  have hjob : ((registered compat_env).store.jobs.get? "job_a").map
      (fun job => (job.job_type, job.resource_id)) = some (.evaluation, "ev_") := by decide +kernel
  have hran : ((run_job_once compat_env "job_a" "tenant" RunFlags.default).result
      (registered compat_env)).toOption.map (fun result => result.final_status) =
        some .needs_manual_decision := by decide +kernel
  obtain ⟨job, hjob, hfields⟩ := Option.map_eq_some_iff.1 hjob
  obtain ⟨result, hresult, hstatus⟩ := Option.map_eq_some_iff.1 hran
  exact ⟨⟨job, hjob, (Prod.mk.inj hfields).1, (Prod.mk.inj hfields).2⟩, result,
    ok_of_toOption hresult, hstatus⟩

theorem approval_is_accepted : (execute_resume compat_env "ev_" "rt_aaaaa" approve_payload).result
    awaiting = .ok resume_job_id := by
  have haccepted : ((execute_resume compat_env "ev_" "rt_aaaaa" approve_payload).result
      awaiting).toOption = some resume_job_id := by decide +kernel
  exact ok_of_toOption haccepted

/-- The job of the bid is cancelled before the resume runs. -/
def approved_then_cancelled : World :=
  after compat_env approved [.cancel_job "job_a" "tenant"]

/-- The law at this bid: a cancelled evaluation stays closed, also when its
job is run again. -/
theorem cancelled_evaluation_stays_closed : Closed "job_a" "ev_" "tenant"
    (after compat_env ((run_job_once compat_env resume_job_id "tenant" RunFlags.default).final
      approved_then_cancelled) [.run_job_once "job_a" "tenant" RunFlags.default]) := by
  have hreturns : ((run_job_once compat_env resume_job_id "tenant" RunFlags.default).result
      approved_then_cancelled).toOption.isSome = true := by decide +kernel
  have hjob : (approved_then_cancelled.store.jobs.get? "job_a").map (fun job => job.status) =
      some .failed := by decide +kernel
  have hfirst : (find_job_by_evaluation_id approved_then_cancelled.store "ev_" "tenant").map
      (fun job => job.status) = some .failed := by decide +kernel
  obtain ⟨result, hresult⟩ := Option.isSome_iff_exists.1 hreturns
  obtain ⟨job, hjob, hstatus⟩ := Option.map_eq_some_iff.1 hjob
  obtain ⟨first, hfirst, hstatus'⟩ := Option.map_eq_some_iff.1 hfirst
  have hruns : RunsToSuccess compat_env approved_then_cancelled resume_job_id "tenant"
      RunFlags.default := ⟨⟨result, ok_of_toOption hresult⟩, by decide +kernel⟩
  have hlaw := resumed_is_closed_iff compat_env [.create_evaluation_job reviewed_bid] []
    [.cancel_job "job_a" "tenant"] "job_a" "tenant" "ev_" "rt_aaaaa" resume_job_id "tenant"
    RunFlags.default RunFlags.default approve_payload bid_is_left
  rw [after_nil] at hlaw
  unfold approved_then_cancelled approved awaiting registered at hruns hjob hfirst ⊢
  exact (hlaw approval_is_accepted hruns).2.1
    ⟨⟨job, hjob, .inr hstatus⟩, first, hfirst, .inr hstatus'⟩
    [.run_job_once "job_a" "tenant" RunFlags.default]

/-- The job of the resume has succeeded, and the approved evaluation waits for
its reviewer as before. -/
theorem approved_evaluation_still_waits :
    LeftToReviewer compat_env (registered compat_env) "job_a" "tenant" "ev_" RunFlags.default ∧
    (execute_resume compat_env "ev_" "rt_aaaaa" approve_payload).result awaiting =
      .ok resume_job_id ∧
    RunsToSuccess compat_env approved resume_job_id "tenant" RunFlags.default ∧
    ¬ Closed "job_a" "ev_" "tenant"
      ((run_job_once compat_env resume_job_id "tenant" RunFlags.default).final approved) := by
  have hreturns : ((run_job_once compat_env resume_job_id "tenant" RunFlags.default).result
      approved).toOption.isSome = true := by decide +kernel
  have hwaits : (((run_job_once compat_env resume_job_id "tenant" RunFlags.default).final
      approved).store.jobs.get? "job_a").map (fun job => job.status) =
        some .needs_manual_decision := by decide +kernel
  obtain ⟨result, hresult⟩ := Option.isSome_iff_exists.1 hreturns
  refine ⟨bid_is_left, approval_is_accepted, ⟨⟨result, ok_of_toOption hresult⟩, by decide +kernel⟩,
    fun hclosed => ?_⟩
  obtain ⟨job, hjob, hdecided⟩ := hclosed.decided
  rw [hjob] at hwaits
  exact hdecided (Option.some.inj hwaits)

end bid_evaluation.close_laws
