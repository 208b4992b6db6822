-- The laws of the human review. A flagged report should never end in a
-- succeeded evaluation job. Under LangGraph it does whenever the graph ends
-- in anything but the interrupt: a normal return, or an error after which
-- the compat path takes over without a look at the flag.
import BidEvaluation.ReviewSteps
import BidEvaluation.JobLaws

open dict_lib stepwise bid_evaluation.values bid_evaluation.core bid_evaluation.store_ops
  bid_evaluation.store_admin bid_evaluation.store_eval
  bid_evaluation.langgraph_runtime bid_evaluation.job_run bid_evaluation.operations
  bid_evaluation.frames bid_evaluation.job_steps bid_evaluation.run_steps
  bid_evaluation.endings bid_evaluation.review_steps bid_evaluation.job_laws

namespace bid_evaluation.review_laws

variable {env : Env} {w : World}

/-! ## The run of an evaluation job -/

/-- The stored report of the evaluation, as the workflow reads it, is
flagged for a review. No accepted resume left it so: one clears the flag. -/
def NeedsReview (w : World) (evaluation_id : String) : Prop :=
  is_flagged (stored_report w.store evaluation_id) = true

/-- A run up to the end of the graph. -/
def run_to_graph (env : Env) (job_id tenant_id : String) : Act Unit := do
  let job ← begin_run env job_id tenant_id
  let _ ← thread_of env job "eval"
  graph_run env job tenant_id

/-- How the LangGraph runtime ends in a run of the job. -/
def graph_outcome (env : Env) (job_id tenant_id : String) (w : World) : Except PyErr Unit :=
  (run_to_graph env job_id tenant_id).result w

/-- The status in which a run ends an evaluation job, or its error. -/
def run_outcome (env : Env) (job : Job) (tenant_id : String) (w : World) :
    Except PyErr JobStatus :=
  outcome_status env (is_flagged (stored_report w.store job.resource_id))
    (graph_outcome env job.job_id tenant_id w)

theorem needs_review_ruled {e : String} {w' : World} (h : Ruled e False w w')
    (hreview : NeedsReview w' e) : NeedsReview w e := by
  unfold NeedsReview stored_report at hreview ⊢
  split at hreview
  · simp [is_flagged] at hreview
  · rename_i hid
    rw [if_neg hid]
    rcases h.report with hsame | ⟨report, hreport, hflag⟩
    · rwa [← hsame]
    · rw [hreport] at hreview
      exact absurd (hflag hreview).1 (by decide)

/-- The outcome, read at the world and the job after the start of the run. -/
theorem outcome_after_begin {job job' : Job} {tenant_id : String}
    (hok : (begin_run env job.job_id tenant_id).result w = .ok job')
    (hresource : job'.resource_id = job.resource_id)
    (hf : Frame [.jobs] w ((begin_run env job.job_id tenant_id).final w)) :
    evaluation_outcome env job' tenant_id ((begin_run env job.job_id tenant_id).final w) =
      run_outcome env job tenant_id w := by
  generalize ht : (begin_run env job.job_id tenant_id).final w = t at hf ⊢
  have hthread := (touches_thread_of (K := []) env job' "eval").frame t
  have hreports : ((thread_of env job' "eval").final t).store.evaluation_reports =
      w.store.evaluation_reports :=
    ((hf.trans (hthread.mono (by simp))).same .reports (by simp))
  obtain ⟨thread_id, hthread_id⟩ := returns_thread_of env job' "eval" t
  have hgraph : graph_outcome env job.job_id tenant_id w =
      (graph_run env job' tenant_id).result ((thread_of env job' "eval").final t) := by
    unfold graph_outcome run_to_graph
    rw [result_bind hok, ht, result_bind hthread_id]
  unfold evaluation_outcome run_outcome stored_report
  dsimp only
  rw [hgraph, hreports, hresource]

/-- A started run of an evaluation job that is not told to fail. -/
theorem evaluation_run.spec {job : Job} {tenant_id : String} {flags : RunFlags}
    (hv : Visible w job (some tenant_id)) (hstart : Startable job.status)
    (htype : job.job_type = .evaluation) (hflags : ¬ ToldToFail flags) :
    Meets (Step env anyJob) (run_job_once env job.job_id tenant_id flags) w (fun r w' =>
      r.map (fun result => result.final_status) = run_outcome env job tenant_id w ∧
      Ruled job.resource_id False w w' ∧
      ∀ result, r = .ok result → ∃ job', w'.store.jobs.get? job.job_id = some job' ∧
        job'.resource_id = job.resource_id ∧ job'.status = result.final_status) := by
  have hbegin : Keeps (Step env anyJob) (begin_run env job.job_id tenant_id) :=
    fun t => (begin_run.spec any_free t job.job_id tenant_id).1
  have hspec : Meets (Step env anyJob) (begin_run env job.job_id tenant_id) w _ :=
    begin_run.spec any_free w job.job_id tenant_id
  unfold run_job_once
  refine meets_saving ((hspec.and (hbegin.ends w)).bind ?_ ?_) ?_
  · rintro job' t ⟨⟨hf, found, hid, hfound, -, hb, hrunning, -⟩, hok, rfl⟩
    cases hv.stored.unique hfound.stored hid
    have hrun : run_started env job' tenant_id flags = run_evaluation_job env job' tenant_id := by
      rw [ToldToFail, not_or] at hflags
      unfold run_started run_by_type
      rw [if_neg hflags.1, if_neg hflags.2, hb.same.job_type, htype]
    have hspec' : Meets (Step env anyJob) (run_evaluation_job env job' tenant_id) _ _ :=
      run_evaluation_job.spec any_free (hb.visible hv) hrunning
    have hrules : Meets AnyStep (run_evaluation_job env job' tenant_id) _ _ :=
      run_evaluation_job.rules job' tenant_id ((begin_run env job.job_id tenant_id).final w)
    rw [hrun]
    refine ⟨hspec'.1, ?_, ?_, ?_⟩
    · exact hspec'.2.2.trans (outcome_after_begin hok.symm hb.same.resource_id hf)
    · exact .from hf (by simp) (.of_frame hf (by simp) (by simp) (by simp))
        (hb.same.resource_id ▸ hrules.2)
    · intro result hresult
      have hended := hspec'.2.1
      rw [hresult] at hended
      obtain ⟨last, hlast, hstatus, -⟩ := hended
      have hid' := hlast.same.job_id.trans hb.same.job_id
      exact ⟨last, hid' ▸ hlast.stored, hlast.same.resource_id.trans hb.same.resource_id, hstatus⟩
  · rintro e t ⟨⟨-, hno⟩, -⟩
    exact absurd hstart ((hno job rfl hv.stored).2 hv)
  · rintro result t t' ⟨houtcome, hruled, hjob⟩ hf
    refine ⟨houtcome, hruled.later hf (by simp) (by simp) (by simp), ?_⟩
    rintro _ ⟨⟩
    obtain ⟨job', hfound, hresource, hstatus⟩ := hjob result rfl
    have hjobs : t'.store.jobs = t.store.jobs := hf.same .jobs (by simp)
    exact ⟨job', hjobs ▸ hfound, hresource, hstatus⟩

/-! ## The laws -/

/-- A run that returns leaves no flagged report behind a succeeded job, and
leaves the job of a report that was flagged to a reviewer. -/
def ReviewKept (env : Env) (w : World) (job_id tenant_id : String) (flags : RunFlags) : Prop :=
  ∀ result, (run_job_once env job_id tenant_id flags).result w = .ok result →
    ∀ job', ((run_job_once env job_id tenant_id flags).final w).store.jobs.get? job_id = some job' →
      (job'.status = .succeeded →
        ¬ NeedsReview ((run_job_once env job_id tenant_id flags).final w) job'.resource_id) ∧
      (¬ ToldToFail flags → NeedsReview w job'.resource_id →
        job'.status = .needs_manual_decision)

/-- The run does not reach the defect: it is told to fail, the report is not
flagged, the job cannot start, the runtime is not LangGraph, or LangGraph
ends in the interrupt. Where the true stack is required, any error will do. -/
def NotBypassed (env : Env) (w : World) (job : Job) (tenant_id : String) (flags : RunFlags) :
    Prop :=
  ToldToFail flags ∨ ¬ NeedsReview w job.resource_id ∨
    ¬ (Visible w job (some tenant_id) ∧ Startable job.status) ∨
    env.workflow_runtime ≠ .ok .langgraph ∨
    graph_outcome env job.job_id tenant_id w = .error .graph_interrupt ∨
    env.true_stack_required = true ∧ ∃ e, graph_outcome env job.job_id tenant_id w = .error e

theorem told_to_fail_keeps_review {job : Job} {tenant_id : String} {flags : RunFlags}
    (hv : Visible w job (some tenant_id)) (hstart : Startable job.status)
    (hflags : ToldToFail flags) : ReviewKept env w job.job_id tenant_id flags := by
  obtain ⟨last, hlast, hends⟩ := (told_to_fail_run.spec hv hstart hflags).2
  intro result hresult job' hjob'
  have hfound := hlast.stored
  unfold Stored at hfound
  rw [hlast.same.job_id, hjob'] at hfound
  cases hfound
  refine ⟨fun hsucceeded => ?_, fun hno => absurd hflags hno⟩
  rw [hsucceeded] at hends
  rcases hends with ⟨h, -⟩ | ⟨h, -⟩ <;> cases h

theorem outcome_ends {flagged : Bool} {graph : Except PyErr Unit} {status : JobStatus}
    (h : outcome_status env flagged graph = .ok status) :
    status = .succeeded ∨ status = .needs_manual_decision := by
  unfold outcome_status at h
  split at h
  · cases h
  · split at h <;> cases h <;> simp
  · split at h
    · cases h
      exact .inl rfl
    · cases h
      exact .inr rfl
    · split at h <;> cases h
      exact .inl rfl

/-- How a run of a flagged report ends well all the same. -/
theorem flagged_outcome_succeeds_iff {graph : Except PyErr Unit} :
    outcome_status env true graph = .ok .succeeded ↔
      env.workflow_runtime = .ok .langgraph ∧ graph ≠ .error .graph_interrupt ∧
        ¬ (env.true_stack_required = true ∧ ∃ e, graph = .error e) := by
  unfold outcome_status
  split
  · rename_i hmode
    simp [hmode]
  · rename_i hmode
    simp [hmode]
  · rename_i hmode
    split
    · simp [hmode]
    · simp
    · rename_i e hno
      by_cases hstack : env.true_stack_required = true
      · simp [hstack]
      · simp only [hstack, hmode]
        simpa using hno

/-- What the law says of a run that was started is what its outcome says. -/
theorem kept_iff_outcome {job : Job} {tenant_id : String} {flags : RunFlags}
    (hv : Visible w job (some tenant_id)) (hstart : Startable job.status)
    (htype : job.job_type = .evaluation) (hflags : ¬ ToldToFail flags) :
    ReviewKept env w job.job_id tenant_id flags ↔
      (NeedsReview w job.resource_id → run_outcome env job tenant_id w ≠ .ok .succeeded) := by
  obtain ⟨houtcome, hruled, hjob⟩ := (evaluation_run.spec hv hstart htype hflags).2
  refine ⟨fun hkept hreview hsucceeded => ?_, fun h result hresult job' hjob' => ?_⟩
  · rw [hsucceeded] at houtcome
    rcases hresult : (run_job_once env job.job_id tenant_id flags).result w with e | result
    · rw [hresult] at houtcome
      cases houtcome
    · rw [hresult] at houtcome
      obtain ⟨job', hfound, hresource, hstatus⟩ := hjob result hresult
      have hends := (hkept result hresult job' hfound).2 hflags (hresource ▸ hreview)
      have hfinal : result.final_status = .succeeded := Except.ok.inj houtcome
      rw [hstatus, hfinal] at hends
      cases hends
  · obtain ⟨last, hfound, hresource, hstatus⟩ := hjob result hresult
    rw [hfound] at hjob'
    cases hjob'
    rw [hresult] at houtcome
    rw [hresource, hstatus]
    refine ⟨fun hsucceeded hreview => ?_, fun _ hreview => ?_⟩
    · refine h (needs_review_ruled hruled hreview) ?_
      rw [← houtcome, Except.map, hsucceeded]
    · have hnot := h hreview
      have hends : run_outcome env job tenant_id w = .ok result.final_status := houtcome.symm
      rw [hends] at hnot
      rcases outcome_ends hends with heq | heq
      · exact absurd (congrArg Except.ok heq) hnot
      · exact heq

theorem review_kept_of_no_return {job_id tenant_id : String} {flags : RunFlags}
    (h : ∃ e, (run_job_once env job_id tenant_id flags).result w = .error e) :
    ReviewKept env w job_id tenant_id flags := by
  obtain ⟨e, he⟩ := h
  intro result hresult
  rw [he] at hresult
  cases hresult

/-- A run keeps the human review exactly when it does not reach LangGraph's
way around it. -/
theorem review_is_kept_iff_not_bypassed (env : Env) (w : World) (job : Job) (tenant_id : String)
    (flags : RunFlags) (hstored : Stored w job) (htype : job.job_type = .evaluation) :
    ReviewKept env w job.job_id tenant_id flags ↔ NotBypassed env w job tenant_id flags := by
  by_cases hstart : Visible w job (some tenant_id) ∧ Startable job.status
  · by_cases hflags : ToldToFail flags
    · exact iff_of_true (told_to_fail_keeps_review hstart.1 hstart.2 hflags) (.inl hflags)
    · rw [kept_iff_outcome hstart.1 hstart.2 htype hflags]
      unfold NotBypassed run_outcome
      by_cases hreview : NeedsReview w job.resource_id
      · have hflag : is_flagged (stored_report w.store job.resource_id) = true := hreview
        rw [hflag, Ne, flagged_outcome_succeeds_iff]
        tauto
      · simp [hreview]
  · refine iff_of_true (review_kept_of_no_return ?_) (.inr (.inr (.inl hstart)))
    exact (not_started_run.spec env flags hstored hstart).2.1

def reviewed_bid : EvaluationPayload := ⟨"tenant", "trace", "project", "supplier", "v1", ⟨[], true⟩⟩

/-- The bid is registered, and its report is flagged. -/
def registered (env : Env) : World :=
  after env World.start [.create_evaluation_job reviewed_bid]

/-- LangGraph interrupts the evaluation of the bid. -/
theorem interrupted_review_is_kept :
    ReviewKept calm_env (registered calm_env) "job_a" "tenant" ⟨false, false, none⟩ := by
  have hfound : ((registered calm_env).store.jobs.get? "job_a").map (fun job => job.job_type) =
      some .evaluation := by decide +kernel
  have hgraph : graph_outcome calm_env "job_a" "tenant" (registered calm_env) =
      .error .graph_interrupt := by decide +kernel
  obtain ⟨job, hjob, htype⟩ := Option.map_eq_some_iff.1 hfound
  have hid : job.job_id = "job_a" := Table.key_of_get? _ hjob
  rw [← hid] at hjob hgraph ⊢
  exact (review_is_kept_iff_not_bypassed calm_env _ job "tenant" _ hjob htype).2
    (.inr (.inr (.inr (.inr (.inl hgraph)))))

/-- The checkpointer of LangGraph raises at the first node. -/
def broken_graph_env : Env :=
  { calm_env with graph_fault := fun _ => some (.raised "RuntimeError" "checkpointer is down") }

/-- The job of the bid succeeds, and its report still waits for a reviewer. -/
theorem broken_graph_bypasses_review :
    ¬ ReviewKept broken_graph_env (registered broken_graph_env) "job_a" "tenant"
      ⟨false, false, none⟩ := by
  intro hkept
  have hreturns : ((run_job_once broken_graph_env "job_a" "tenant" ⟨false, false, none⟩).result
      (registered broken_graph_env)).isOk = true := by decide +kernel
  have hfound : (((run_job_once broken_graph_env "job_a" "tenant" ⟨false, false, none⟩).final
      (registered broken_graph_env)).store.jobs.get? "job_a").map
        (fun job => (job.status, job.resource_id)) = some (.succeeded, "ev_") := by decide +kernel
  have hreview : NeedsReview (registered broken_graph_env) "ev_" := by
    unfold NeedsReview
    decide +kernel
  obtain ⟨job, hjob, hends⟩ := Option.map_eq_some_iff.1 hfound
  obtain ⟨hstatus, hresource⟩ := Prod.mk.inj hends
  rcases hresult : (run_job_once broken_graph_env "job_a" "tenant" ⟨false, false, none⟩).result
    (registered broken_graph_env) with e | result
  · rw [hresult] at hreturns
    cases hreturns
  · have hleft := (hkept result hresult job hjob).2 (by simp [ToldToFail]) (hresource ▸ hreview)
    rw [hstatus] at hleft
    cases hleft

end bid_evaluation.review_laws
