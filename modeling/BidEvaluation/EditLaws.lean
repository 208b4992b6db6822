-- The laws of a reviewer's edits. The edits of an accepted resume are stored
-- with its job, and nothing reads them again: the compat path only writes
-- checkpoints, and the graph drops the value that its interrupt returns.
import BidEvaluation.ResumeLaws

open dict_lib stepwise bid_evaluation.values bid_evaluation.core bid_evaluation.store_ops
  bid_evaluation.store_workflow bid_evaluation.store_admin bid_evaluation.store_eval
  bid_evaluation.evaluation_nodes bid_evaluation.langgraph_runtime bid_evaluation.job_run
  bid_evaluation.operations bid_evaluation.frames bid_evaluation.job_steps
  bid_evaluation.run_steps bid_evaluation.op_steps bid_evaluation.endings
  bid_evaluation.job_laws bid_evaluation.review_steps bid_evaluation.review_laws
  bid_evaluation.resume_laws

namespace bid_evaluation.edit_laws

variable {env : Env} {w : World}

/-! ## Scores -/

/-- The total score of the gate. -/
def weighted_total (criteria_weights : List (String × Rat)) (hard_constraint_pass : Bool)
    (criteria_results : List CriteriaResult) : Rat :=
  if hard_constraint_pass then
    (criteria_results.map (fun r =>
      r.score * (lookupEntry criteria_weights r.criteria_id).getD 1)).sum
  else 0

/-- The score that an edit of the request gives to a criterion. -/
def edit_of (env : Env) (edit : PyDict) : Option (String × Rat) :=
  match edit.get "criteria_id", (edit.get "score").toFloat env.float_of_str with
  | .str criteria_id, .ok score => some (criteria_id, score)
  | _, _ => none

/-- The edits of a request by criterion, as `node_finalize_report` reads
them. The last edit of a criterion counts. -/
def edits_of (env : Env) (edited_scores : List PyDict) : List (String × Rat) :=
  (edited_scores.filterMap (edit_of env)).foldl (fun edits e => setEntry edits e.1 e.2) []

def scoreOf (r : CriteriaResult) : String × Rat := (r.criteria_id, r.score)

/-- The results have the edited scores and otherwise the scores before, and
the total is theirs. -/
structure CarriesEdits (criteria_weights : List (String × Rat)) (hard_constraint_pass : Bool)
    (edits : List (String × Rat)) (before results : List CriteriaResult) (total_score : Rat) :
    Prop where
  scores : results.map scoreOf = (before.map (apply_edit edits)).map scoreOf
  total : total_score = weighted_total criteria_weights hard_constraint_pass results

/-- An edit takes the place of the score of the criterion that it names. -/
def editScore (edits : List (String × Rat)) (score : String × Rat) : String × Rat :=
  (score.1, (lookupEntry edits score.1).getD score.2)

theorem scores_of_edits (edits : List (String × Rat)) (results : List CriteriaResult) :
    (results.map (apply_edit edits)).map scoreOf =
      (results.map scoreOf).map (editScore edits) := by
  rw [List.map_map, List.map_map]
  apply List.map_congr_left
  intro r _
  unfold editScore scoreOf apply_edit
  dsimp only [Function.comp]
  split
  · rename_i hnone
    rw [hnone, Option.getD_none]
  · rename_i score hsome
    rw [hsome, Option.getD_some]

/-! ## What the programs return -/

/-- Whatever the program returns has the property. -/
def Gives (m : Act α) (P : α → Prop) : Prop := ∀ w a, m.result w = .ok a → P a

theorem gives_pure {P : α → Prop} {a : α} (h : P a) : Gives (pure a) P := by
  intro w b hb
  cases hb
  exact h

theorem gives_then {m : Act α} {f : α → Act β} {P : α → Prop} {Q : β → Prop} (h : Gives m P)
    (hf : ∀ a, P a → Gives (f a) Q) : Gives (m >>= f) Q := by
  intro w b hb
  rcases hm : m.result w with e | a
  · rw [result_bind_error hm] at hb
    cases hb
  · rw [result_bind hm] at hb
    exact hf a (h w a hm) _ b hb

theorem gives_bind {m : Act α} {f : α → Act β} {Q : β → Prop} (hf : ∀ a, Gives (f a) Q) :
    Gives (m >>= f) Q :=
  gives_then (P := fun _ => True) (fun _ _ _ => trivial) fun a _ => hf a

theorem gives_ite {c : Prop} [Decidable c] {a b : Act α} {P : α → Prop} (ha : Gives a P)
    (hb : Gives b P) : Gives (if c then a else b) P := by
  split
  · exact ha
  · exact hb

/-! ## The resumed graph -/

/-- The gate keeps the scores of the state, and computes their total. -/
structure Scored (state merged : EvaluationState) : Prop where
  evaluation_id : merged.evaluation_id = state.evaluation_id
  criteria_results : merged.criteria_results = state.criteria_results
  edited_scores : merged.edited_scores = state.edited_scores
  total_score : merged.total_score =
    weighted_total state.criteria_weights state.hard_constraint_pass state.criteria_results

theorem gate_scores (env : Env) (state : EvaluationState) :
    Gives (node_quality_gate env state) (Scored state) := by
  unfold node_quality_gate
  refine gives_bind fun w => gives_bind fun interrupt_payload => ?_
  exact gives_pure ⟨rfl, rfl, rfl, rfl⟩

theorem graph_gate_scores (env : Env) (id : WorkflowIdentity) (resuming : Bool)
    (state : EvaluationState) :
    Gives (graph_node env id resuming state .quality_gate) (Scored state) := by
  unfold graph_node
  refine gives_bind fun _ => ?_
  rw [if_pos rfl]
  unfold quality_gate_node
  refine gives_then (gate_scores env state) fun merged hscored => ?_
  refine gives_ite ?_ ?_
  · exact gives_bind fun _ => gives_bind fun _ => gives_bind fun _ => gives_pure hscored
  · refine gives_bind fun _ => gives_ite ?_ (gives_pure hscored)
    exact gives_bind fun _ => gives_pure hscored

/-- The report that the graph makes of an interrupted state. -/
structure ReportOf (state : EvaluationState) (report : EvaluationReport) : Prop where
  evaluation_id : report.evaluation_id = state.evaluation_id
  criteria_results : report.criteria_results =
    state.criteria_results.map (apply_edit state.edited_scores)
  total_score : report.total_score =
    weighted_total state.criteria_weights state.hard_constraint_pass state.criteria_results

/-- A state that was carried to the end of the graph has left its report,
and no state has left the reports as they were. -/
def LeftBy (carried : Option EvaluationState) (w w' : World) : Prop :=
  match carried with
  | none => w'.store.evaluation_reports = w.store.evaluation_reports
  | some state => ∃ report, ReportOf state report ∧
      w'.store.evaluation_reports = w.store.evaluation_reports.put report

theorem LeftBy.later {K : List Part} {carried : Option EvaluationState} {t t' : World}
    (h : LeftBy carried w t) (hf : Frame K t t') (hK : .reports ∉ K) : LeftBy carried w t' := by
  have hsame : t'.store.evaluation_reports = t.store.evaluation_reports := hf.same .reports hK
  unfold LeftBy at h ⊢
  rw [hsame]
  exact h

theorem LeftBy.from {K : List Part} {carried : Option EvaluationState} {t t' : World}
    (hf : Frame K w t) (hK : .reports ∉ K) (h : LeftBy carried t t') : LeftBy carried w t' := by
  have hsame : t.store.evaluation_reports = w.store.evaluation_reports := hf.same .reports hK
  unfold LeftBy at h ⊢
  rw [← hsame]
  exact h

theorem graph_persist.stores {report : EvaluationReport} (env : Env) (id : WorkflowIdentity)
    (resuming : Bool) {state : EvaluationState} (hreport : state.report = some report) (w : World) :
    Meets AnyStep (graph_node env id resuming state .persist_result) w
      (fun r w' => Stores report w w' r) := by
  unfold graph_node
  refine past_parts (K := []) (touches_graph_fault env) (fun _ t hf => ?_)
    (fun e t hf => hf.same .reports (by simp))
  rw [if_neg (by decide)]
  refine past_return (K := []) (touches_checkpoint env _ _ _ _ _ _)
    (returns_checkpoint env _ _ _ _ _ _) fun _ t' hf' => ?_
  have hsame : t'.store.evaluation_reports = w.store.evaluation_reports :=
    (hf.trans hf').same .reports (by simp)
  have hstores : ∀ (r : Except PyErr EvaluationState) t'', Stores report t' t'' r →
      Stores report w t'' r := by
    intro r t'' h
    unfold Stores at h ⊢
    rw [← hsame]
    exact h
  unfold node_fn node_persist_result
  rw [hreport]
  refine (persist_evaluation_report.spec env report t').bind ?_ ?_
  · intro u t'' h
    rw [meets_pure]
    exact hstores (.ok state) t'' h.2
  · intro e t'' h
    exact hstores (.error e) t'' h.2

/-- The nodes from the gate on store the report of the state they began
with, or raise and store nothing. -/
theorem after_interrupt.leaves (env : Env) (id : WorkflowIdentity) (state : EvaluationState)
    (w : World) :
    Meets AnyStep (after_interrupt.foldlM (graph_node env id true) state) w (fun r w' =>
      LeftBy (match r with | .ok _ => some state | .error _ => none) w w') := by
  simp only [after_interrupt, List.foldlM_cons, List.foldlM_nil]
  have hgate : Meets AnyStep (graph_node env id true state .quality_gate) w (fun r t =>
      Frame [.tokens, .interrupted] w t ∧ ∀ merged, r = .ok merged → Scored state merged) :=
    ⟨keeps_true _ w, (graph_gate.spec id true state w).2.frame,
      graph_gate_scores env id true state w⟩
  refine hgate.bind ?_ (fun e t h => h.1.same .reports (by simp))
  rintro merged t₁ ⟨hf₁, hscored⟩
  have hscored := hscored merged rfl
  refine (graph_finalize.spec id true merged t₁).bind ?_ ?_
  · rintro final t₂ ⟨hf₂, hreport⟩
    obtain ⟨store, hreport⟩ := hreport final rfl
    have hf : Frame [.tokens, .interrupted] w t₂ := hf₁.trans (hf₂.mono (by simp))
    refine (graph_persist.stores env id true hreport t₂).bind ?_ ?_
    · rintro last t₃ ⟨uri, hput⟩
      rw [meets_pure]
      refine LeftBy.from hf (by simp) ⟨_, ⟨hscored.evaluation_id, ?_, hscored.total_score⟩, hput⟩
      show merged.criteria_results.map (apply_edit merged.edited_scores) = _
      rw [hscored.criteria_results, hscored.edited_scores]
    · intro e t₃ hsame
      have hnothing : LeftBy none t₂ t₃ := hsame
      exact hnothing.from hf (by simp)
  · rintro e t₂ ⟨hf₂, -⟩
    exact (hf₁.trans (hf₂.mono (by simp))).same .reports (by simp)

/-- The state of the interrupted thread, if its remaining nodes all return. -/
def carried_at (env : Env) (id : WorkflowIdentity) (w : World) : Option EvaluationState :=
  match w.interrupted id.thread_id with
  | none => none
  | some state =>
    match (after_interrupt.foldlM (graph_node env id true) state).result w with
    | .ok _ => some state
    | .error _ => none

theorem invoke_resume.leaves (env : Env) (id : WorkflowIdentity) (w : World) :
    Meets AnyStep (invoke_resume env id) w (fun _ w' => LeftBy (carried_at env id w) w w') := by
  unfold invoke_resume carried_at
  rw [meets_bind, meets_read, then_ok]
  rcases hwaiting : w.interrupted id.thread_id with _ | state
  · refine (ends_touches (K := []) (touches_graph_fault env) w).post fun _ t hf => ?_
    exact hf.same .reports (by simp)
  · dsimp only
    have hends := (keeps_true (after_interrupt.foldlM (graph_node env id true) state)).ends w
    rw [meets_catching]
    unfold run_nodes
    refine ((after_interrupt.leaves env id state w).and hends).bind ?_ ?_
    · rintro last t ⟨hleft, hresult, -⟩
      rw [← hresult]
      refine (ends_touches (K := []) (touches_graph_fault env) t).post fun r t' hf => ?_
      have hleft := hleft.later hf (by simp)
      cases r with
      | ok u => exact hleft
      | error e =>
        rw [handled_error]
        refine (ends_touches (K := []) (touches_on_interrupt env e) t').post fun _ _ hf' => ?_
        exact hleft.later hf' (by simp)
    · rintro e t ⟨hleft, hresult, -⟩
      rw [← hresult, handled_error]
      refine (ends_touches (K := []) (touches_on_interrupt env e) t).post fun _ _ hf => ?_
      exact hleft.later hf (by simp)

/-! ## The resume job -/

/-- The state that LangGraph carries to the end when it resumes the thread
of a running job. -/
def resumed_state (env : Env) (job : Job) (tenant_id : String) : Act (Option EvaluationState) := do
  let _ ← thread_of env job "resume"
  let thread_id ← thread_of env job "resume"
  let w ← read
  pure (carried_at env ⟨thread_id, job.job_id, tenant_id⟩ w)

/-- No state is carried by the compat path. -/
def carried_by (env : Env) (r : Except PyErr (Option EvaluationState)) : Option EvaluationState :=
  match env.workflow_runtime, r with
  | .ok .langgraph, .ok state => state
  | _, _ => none

theorem run_resume_graph.leaves (env : Env) (job : Job) (tenant_id : String) (w : World) :
    Meets AnyStep (run_resume_graph env job tenant_id) w (fun _ w' =>
      ∃ thread_id, (thread_of env job "resume").result w = .ok thread_id ∧
        LeftBy (carried_at env ⟨thread_id, job.job_id, tenant_id⟩
          ((thread_of env job "resume").final w)) w w') := by
  obtain ⟨thread_id, hthread⟩ := returns_thread_of env job "resume" w
  have hf := (touches_thread_of (K := []) env job "resume").frame w
  have hends := (keeps_true (thread_of env job "resume")).ends w
  unfold run_resume_graph
  refine hends.bind ?_ (by rintro e t ⟨he, -⟩; rw [hthread] at he; cases he)
  rintro thread_id' t ⟨hsame, rfl⟩
  rw [hthread] at hsame
  cases hsame
  have hinvoke := invoke_resume.leaves env ⟨thread_id, job.job_id, tenant_id⟩
    ((thread_of env job "resume").final w)
  refine (hinvoke.catching (Q := fun _ t => LeftBy (carried_at env
    ⟨thread_id, job.job_id, tenant_id⟩ ((thread_of env job "resume").final w))
    ((thread_of env job "resume").final w) t) (fun _ _ h => h) ?_).bind ?_ ?_
  · rintro (api | _ | raised) t h
    · rw [meets_raise]
      exact h
    · unfold resume_rejected raise_api
      rw [meets_raise]
      exact h
    · rw [meets_raise]
      exact h
  · intro _ t h
    refine (ends_touches (K := [.jobs]) (touches_finish env (by simp) _ _ _ _ _) t).post ?_
    intro _ _ hf'
    exact ⟨thread_id, hthread, .from hf (by simp) (h.later hf' (by simp))⟩
  · intro e t h
    exact ⟨thread_id, hthread, .from hf (by simp) h⟩

theorem run_resume_workflow.leaves (env : Env) (job : Job) (tenant_id : String) (w : World) :
    Meets AnyStep (run_resume_workflow env job tenant_id) w (fun _ w' =>
      LeftBy (carried_by env ((resumed_state env job tenant_id).result w)) w w') := by
  have hcompat : ∀ thread_id {carried : Option EvaluationState} {t : World}, LeftBy carried w t →
      Meets AnyStep (run_resume_compat env job tenant_id thread_id) t
        (fun _ w' => LeftBy carried w w') := by
    intro thread_id carried t h
    refine (ends_touches (K := [.jobs]) (keeps_bind (touches_checkpoints env _ _ _ _) fun _ =>
      touches_finish env (by simp) _ _ _ _ _) t).post ?_
    intro _ _ hf
    exact h.later hf (by simp)
  obtain ⟨thread_id, hthread⟩ := returns_thread_of env job "resume" w
  have hf := (touches_thread_of (K := []) env job "resume").frame w
  have hends := (keeps_true (thread_of env job "resume")).ends w
  unfold run_resume_workflow carried_by
  refine hends.bind ?_ (by rintro e t ⟨he, -⟩; rw [hthread] at he; cases he)
  rintro _ t ⟨-, rfl⟩
  have hquiet : LeftBy none w ((thread_of env job "resume").final w) := hf.same .reports (by simp)
  rw [meets_bind, meets_lift]
  rcases env.workflow_runtime with e | mode
  · exact hquiet
  · rw [then_ok]
    cases mode with
    | compat => exact hcompat _ hquiet
    | langgraph =>
      refine (run_resume_graph.leaves env job tenant_id _).catching ?_ ?_
      · rintro result t ⟨thread_id', hthread', h⟩
        unfold resumed_state
        rw [result_bind hthread, result_bind hthread', result_read]
        exact .from hf (by simp) h
      · rintro e t ⟨thread_id', hthread', h⟩
        unfold resumed_state
        rw [result_bind hthread, result_bind hthread', result_read]
        have hleft := LeftBy.from hf (by simp) h
        rw [meets_ite, meets_raise]
        exact ⟨fun _ => hleft, fun _ => hcompat _ hleft⟩

/-- A run up to the resume of the thread. -/
def run_to_resume (env : Env) (job_id tenant_id : String) : Act (Option EvaluationState) := do
  let job ← begin_run env job_id tenant_id
  resumed_state env job tenant_id

/-- The state that LangGraph carries to the end in a run of a resume job. -/
def carried (env : Env) (w : World) (job_id tenant_id : String) : Option EvaluationState :=
  carried_by env ((run_to_resume env job_id tenant_id).result w)

theorem run_resume_job.leaves (env : Env) (job : Job) (tenant_id : String) (w : World) :
    Meets AnyStep (run_resume_job env job tenant_id) w (fun _ w' =>
      LeftBy (carried_by env ((resumed_state env job tenant_id).result w)) w w') := by
  unfold run_resume_job
  refine (run_resume_workflow.leaves env job tenant_id w).bind ?_ (fun e t h => h)
  intro result t h
  refine past_return (K := []) (touches_checkpoint env _ _ _ _ _ _)
    (returns_checkpoint env _ _ _ _ _ _) fun _ t' hf => ?_
  rw [meets_pure]
  exact h.later hf (by simp)

/-- A run of a resume job that is not told to fail. -/
theorem resume_run.leaves {job : Job} {tenant_id : String} {flags : RunFlags} (env : Env)
    (hv : Visible w job (some tenant_id)) (hstart : Startable job.status)
    (htype : job.job_type = .resume) (hflags : ¬ ToldToFail flags) :
    Meets AnyStep (run_job_once env job.job_id tenant_id flags) w
      (fun _ w' => LeftBy (carried env w job.job_id tenant_id) w w') := by
  have hspec : Meets (Step env anyJob) (begin_run env job.job_id tenant_id) w _ :=
    begin_run.spec any_free w job.job_id tenant_id
  have hends := (keeps_true (begin_run env job.job_id tenant_id)).ends w
  unfold run_job_once
  refine any_saving (((meets_any hspec).and hends).bind ?_ ?_) ?_
  · rintro job' t ⟨⟨hf, found, hid, hfound, -, hb, -⟩, hok, rfl⟩
    cases hv.stored.unique hfound.stored hid
    have hrun : run_started env job' tenant_id flags = run_resume_job env job' tenant_id := by
      rw [ToldToFail, not_or] at hflags
      unfold run_started run_by_type
      rw [if_neg hflags.1, if_neg hflags.2, hb.same.job_type, htype]
    unfold carried run_to_resume
    rw [result_bind hok.symm, hrun]
    refine (run_resume_job.leaves env job' tenant_id _).post fun _ _ h => ?_
    exact .from hf (by simp) h
  · rintro e t ⟨⟨-, hno⟩, -⟩
    exact absurd hstart ((hno job rfl hv.stored).2 hv)
  · intro result t t' h hf
    exact h.later hf (by simp)

/-! ## The request -/

/-- The scores of a report. -/
def scoresIn (report : EvaluationReport) : List CriteriaResult × Rat :=
  (report.criteria_results, report.total_score)

/-- The job of an accepted request, and the report that it leaves. -/
structure Requested (w t : World) (evaluation_id job_id : String) (payload : ResumePayload) :
    Prop where
  job : ∃ job, t.store.jobs.get? job_id = some job ∧ job.job_type = .resume ∧
    job.resource_id = evaluation_id ∧ job.payload = .resume payload
  scores : (t.store.evaluation_reports.get? evaluation_id).map scoresIn =
    (w.store.evaluation_reports.get? evaluation_id).map scoresIn

theorem get_report_key {s : Store} {evaluation_id tenant_id : String} {report : EvaluationReport}
    (h : get_report s evaluation_id tenant_id = some report) :
    s.evaluation_reports.get? evaluation_id = some report ∧
      report.evaluation_id = evaluation_id := by
  unfold get_report at h
  obtain ⟨hfound, -⟩ := Option.filter_eq_some_iff.1 h
  exact ⟨hfound, Table.key_of_get? _ hfound⟩

/-- To clear the flag of a report keeps its scores. -/
theorem clear_review.keeps_scores (env : Env) (evaluation_id tenant_id : String) (w : World) :
    Meets AnyStep (clear_review env (get_report w.store evaluation_id tenant_id)) w (fun _ t =>
      Frame [.reports] w t ∧
      (t.store.evaluation_reports.get? evaluation_id).map scoresIn =
        (w.store.evaluation_reports.get? evaluation_id).map scoresIn) := by
  unfold clear_review
  rcases hreport : get_report w.store evaluation_id tenant_id with _ | report
  · dsimp only
    rw [meets_pure]
    exact ⟨Frame.refl w, rfl⟩
  · obtain ⟨hfound, hid⟩ := get_report_key hreport
    refine (persist_evaluation_report.spec env _ w).post ?_
    rintro r t ⟨hf, hstores⟩
    refine ⟨hf, ?_⟩
    cases r with
    | error e => rw [show t.store.evaluation_reports = w.store.evaluation_reports from hstores]
    | ok u =>
      obtain ⟨uri, hput⟩ := hstores
      rw [hput, Table.get?_put, if_pos (show evaluation_id = _ from hid.symm), hfound]
      rfl

theorem create_resume_job.requests (env : Env) (evaluation_id : String) (payload : ResumePayload)
    (w : World) :
    Meets AnyStep (create_resume_job env evaluation_id payload) w (fun r t =>
      ∀ job_id, r = .ok job_id → Requested w t evaluation_id job_id payload) := by
  apply create_resume_job.walk
  intro job t hjob
  have hreports : t.store.evaluation_reports = w.store.evaluation_reports :=
    hjob.frame.same .reports (by simp)
  have hreport : get_report w.store evaluation_id payload.tenant_id =
      get_report t.store evaluation_id payload.tenant_id := by
    unfold get_report
    rw [hreports]
  rw [hreport]
  refine (clear_review.keeps_scores env evaluation_id payload.tenant_id t).post ?_
  rintro r t' ⟨hf, hscores⟩
  cases r with
  | error e => exact fun job_id hid => by cases hid
  | ok u =>
    rintro t'' hf' _ ⟨⟩
    have hjobs : t''.store.jobs = t.store.jobs :=
      ((hf.mono (by simp)).trans (hf'.mono (by simp)) : Frame [.reports, .outbox] t t'').same
        .jobs (by simp)
    have hkept : t''.store.evaluation_reports = t'.store.evaluation_reports :=
      hf'.same .reports (by simp)
    refine ⟨⟨job, ?_, hjob.job_type, hjob.resource_id, hjob.carries⟩, ?_⟩
    · rw [hjobs, hjob.jobs]
      exact Table.get?_put_self _ _
    · rw [hkept, hscores, hreports]

theorem execute_resume.requests (env : Env) (evaluation_id resume_token : String)
    (payload : ResumePayload) (w : World) :
    Meets AnyStep (execute_resume env evaluation_id resume_token payload) w (fun r t =>
      ∀ job_id, r = .ok job_id → Requested w t evaluation_id job_id payload) := by
  unfold execute_resume
  refine past_parts (K := [.tokens]) (touches_consume_token env (by simp) _ _ _) ?_
    (by rintro e t - id ⟨⟩)
  intro consumed t hf
  rw [meets_ite]
  constructor
  · intro _
    refine (create_resume_job.requests env evaluation_id payload t).post ?_
    intro r t' h job_id hr
    have hreports : t.store.evaluation_reports = w.store.evaluation_reports :=
      hf.same .reports (by simp)
    have hrequested := h job_id hr
    exact ⟨hrequested.job, hreports ▸ hrequested.scores⟩
  · intro _
    unfold raise_api
    rw [meets_raise]
    rintro id ⟨⟩

/-! ## The laws -/

/-- A reviewer's request: the report is flagged, and the request is accepted. -/
structure Accepted (env : Env) (w : World) (evaluation_id resume_token job_id : String)
    (payload : ResumePayload) (report : EvaluationReport) : Prop where
  found : w.store.evaluation_reports.get? evaluation_id = some report
  flagged : report.needs_human_review = true
  accepted : (execute_resume env evaluation_id resume_token payload).result w = .ok job_id

/-- Whatever else happened, the job of the request is there and the report is
as the request has left it. -/
structure StillRequested (t v : World) (evaluation_id job_id : String) : Prop where
  job : ∀ job, t.store.jobs.get? job_id = some job →
    ∃ job', v.store.jobs.get? job_id = some job' ∧ SameJob job job'
  report : v.store.evaluation_reports.get? evaluation_id =
    t.store.evaluation_reports.get? evaluation_id

theorem StillRequested.refl (t : World) (evaluation_id job_id : String) :
    StillRequested t t evaluation_id job_id :=
  ⟨fun job hjob => ⟨job, hjob, SameJob.refl job⟩, rfl⟩

/-- The run returns and leaves its job succeeded. -/
def RunsToSuccess (env : Env) (v : World) (job_id tenant_id : String) (flags : RunFlags) : Prop :=
  (∃ result, (run_job_once env job_id tenant_id flags).result v = .ok result) ∧
    (((run_job_once env job_id tenant_id flags).final v).store.jobs.get? job_id).map
      (fun job => job.status) = some .succeeded

/-- Such a run found its job in a status from which it can start, and it was
not told to fail. -/
theorem RunsToSuccess.unforced {v : World} {job : Job} {tenant_id : String} {flags : RunFlags}
    (h : RunsToSuccess env v job.job_id tenant_id flags) (hstored : Stored v job) :
    Visible v job (some tenant_id) ∧ Startable job.status ∧ ¬ ToldToFail flags := by
  obtain ⟨⟨result, hresult⟩, hsucceeded⟩ := h
  have hstart : Visible v job (some tenant_id) ∧ Startable job.status := by
    by_contra hno
    obtain ⟨⟨e, he⟩, -⟩ := (not_started_run.spec env flags hstored hno).2
    rw [hresult] at he
    cases he
  have hflags : ¬ ToldToFail flags := by
    intro htold
    obtain ⟨last, hlast, hends⟩ := (told_to_fail_run.spec hstart.1 hstart.2 htold).2
    have hfound := hlast.stored
    unfold Stored at hfound
    rw [hlast.same.job_id] at hfound
    rw [hfound] at hsucceeded
    have hstatus : last.status = .succeeded := Option.some.inj hsucceeded
    rw [hstatus] at hends
    rcases hends with ⟨h, -⟩ | ⟨h, -⟩ <;> cases h
  exact ⟨hstart.1, hstart.2, hflags⟩

/-- The scores that stand without the edits: those of the report, or those of
the interrupted state that LangGraph carries to the end. -/
def standing (evaluation_id : String) (report : EvaluationReport)
    (carried : Option EvaluationState) : List CriteriaResult × Rat :=
  match carried with
  | none => scoresIn report
  | some state =>
    if state.evaluation_id = evaluation_id then
      (state.criteria_results.map (apply_edit state.edited_scores),
        weighted_total state.criteria_weights state.hard_constraint_pass state.criteria_results)
    else scoresIn report

theorem standing_is_left {carried : Option EvaluationState} {v v' : World}
    {evaluation_id : String} {report : EvaluationReport} (h : LeftBy carried v v')
    (hreport : (v.store.evaluation_reports.get? evaluation_id).map scoresIn =
      some (scoresIn report)) :
    (v'.store.evaluation_reports.get? evaluation_id).map scoresIn =
      some (standing evaluation_id report carried) := by
  unfold LeftBy at h
  unfold standing
  cases carried with
  | none =>
    dsimp only at h
    rw [h]
    exact hreport
  | some state =>
    obtain ⟨left, hof, hput⟩ := h
    rw [hput, Table.get?_put]
    dsimp only
    by_cases hid : state.evaluation_id = evaluation_id
    · rw [if_pos hid, if_pos (hid.symm.trans hof.evaluation_id.symm), Option.map_some, scoresIn,
        hof.criteria_results, hof.total_score]
    · have hne : ¬ evaluation_id = left.evaluation_id := by
        rw [hof.evaluation_id]
        exact Ne.symm hid
      rw [if_neg hid, if_neg hne]
      exact hreport

/-- The edits of an accepted request reach the report exactly when the scores
that stand without them are already the edited ones. -/
theorem edits_reach_iff_they_stand (env : Env) (w v : World)
    (evaluation_id resume_token job_id tenant_id : String) (payload : ResumePayload)
    (report : EvaluationReport) (flags : RunFlags) (criteria_weights : List (String × Rat))
    (hard_constraint_pass : Bool)
    (h : Accepted env w evaluation_id resume_token job_id payload report)
    (hlater : StillRequested ((execute_resume env evaluation_id resume_token payload).final w) v
      evaluation_id job_id)
    (hrun : RunsToSuccess env v job_id tenant_id flags) :
    (∃ after, ((run_job_once env job_id tenant_id flags).final v).store.evaluation_reports.get?
        evaluation_id = some after ∧
      CarriesEdits criteria_weights hard_constraint_pass (edits_of env payload.edited_scores)
        report.criteria_results after.criteria_results after.total_score) ↔
    CarriesEdits criteria_weights hard_constraint_pass (edits_of env payload.edited_scores)
      report.criteria_results (standing evaluation_id report (carried env v job_id tenant_id)).1
      (standing evaluation_id report (carried env v job_id tenant_id)).2 := by
  have hrequested := (execute_resume.requests env evaluation_id resume_token payload w).2 job_id
    h.accepted
  obtain ⟨made, hmade, htype, hresource, hpayload⟩ := hrequested.job
  obtain ⟨job, hjob, hsame⟩ := hlater.job made hmade
  have hid : job.job_id = job_id := Table.key_of_get? _ hjob
  have hstored : Stored v job := by
    unfold Stored
    rw [hid]
    exact hjob
  subst hid
  obtain ⟨hv, hstart, hflags⟩ := hrun.unforced hstored
  have hleft := (resume_run.leaves env hv hstart (hsame.job_type.trans htype) hflags).2
  have hkept : (v.store.evaluation_reports.get? evaluation_id).map scoresIn =
      some (scoresIn report) := by
    rw [hlater.report, hrequested.scores, h.found]
    rfl
  have hscores := standing_is_left hleft hkept
  obtain ⟨after, hafter, hstands⟩ := Option.map_eq_some_iff.1 hscores
  rw [← hstands]
  constructor
  · rintro ⟨after', hafter', hcarries⟩
    rw [hafter] at hafter'
    cases hafter'
    exact hcarries
  · intro hcarries
    exact ⟨after, hafter, hcarries⟩

def compat_env : Env := { calm_env with workflow_runtime := .ok .compat }

/-- The evaluation of the bid has run, and waits for its reviewer. -/
def awaiting : World :=
  (run_job_once compat_env "job_a" "tenant" RunFlags.default).final (registered compat_env)

/-- The reviewer gives a score to the one criterion of the bid. -/
def edit_request (score : Int) : ResumePayload :=
  ⟨"tenant", "trace", "edit_scores", "", "reviewer",
    [[("criteria_id", .str "delivery"), ("score", .int score)]]⟩

def requested (score : Int) : World :=
  (execute_resume compat_env "ev_" "rt_aaaaa" (edit_request score)).final awaiting

/-- The job that the request makes. -/
def resume_job_id : String := "job_aaaaaaaaaaaaaaaaaaaaaaaaaaaa"

theorem awaiting_report :
    ∃ report, awaiting.store.evaluation_reports.get? "ev_" = some report ∧
      report.criteria_results.map scoreOf = [("delivery", 10)] ∧ report.total_score = 0 ∧
      report.needs_human_review = true := by
  have hfound : (awaiting.store.evaluation_reports.get? "ev_").map (fun report =>
      (report.criteria_results.map scoreOf, report.total_score, report.needs_human_review)) =
      some ([("delivery", 10)], 0, true) := by decide +kernel
  obtain ⟨report, hreport, hparts⟩ := Option.map_eq_some_iff.1 hfound
  simp only [Prod.mk.injEq] at hparts
  exact ⟨report, hreport, hparts⟩

/-- The request for a score is accepted, and its job runs to success. -/
theorem request_runs (score : Int)
    (hjob : ((execute_resume compat_env "ev_" "rt_aaaaa" (edit_request score)).result
      awaiting).toOption = some resume_job_id)
    (hreturns : ((run_job_once compat_env resume_job_id "tenant" RunFlags.default).result
      (requested score)).toOption.isSome = true)
    (hsucceeded : (((run_job_once compat_env resume_job_id "tenant" RunFlags.default).final
      (requested score)).store.jobs.get? resume_job_id).map (fun job => job.status) =
        some .succeeded) :
    ∃ report, Accepted compat_env awaiting "ev_" "rt_aaaaa" resume_job_id (edit_request score)
        report ∧ report.criteria_results.map scoreOf = [("delivery", 10)] ∧
      report.total_score = 0 ∧
      RunsToSuccess compat_env (requested score) resume_job_id "tenant" RunFlags.default := by
  obtain ⟨report, hfound, hscores, htotal, hflagged⟩ := awaiting_report
  obtain ⟨result, hresult⟩ := Option.isSome_iff_exists.1 hreturns
  exact ⟨report, ⟨hfound, hflagged, ok_of_toOption hjob⟩, hscores, htotal,
    ⟨result, ok_of_toOption hresult⟩, hsucceeded⟩

/-- The reviewer edits the score to what it already is. -/
theorem same_score_stands :
    ∃ report after, Accepted compat_env awaiting "ev_" "rt_aaaaa" resume_job_id (edit_request 10)
        report ∧
      ((run_job_once compat_env resume_job_id "tenant" RunFlags.default).final
        (requested 10)).store.evaluation_reports.get? "ev_" = some after ∧
      CarriesEdits [("delivery", 1)] false (edits_of compat_env (edit_request 10).edited_scores)
        report.criteria_results after.criteria_results after.total_score := by
  obtain ⟨report, haccepted, hscores, htotal, hruns⟩ :=
    request_runs 10 (by decide +kernel) (by decide +kernel) (by decide +kernel)
  obtain ⟨after, hafter, hcarries⟩ := (edits_reach_iff_they_stand compat_env awaiting
    (requested 10) "ev_" "rt_aaaaa" resume_job_id "tenant" (edit_request 10) report
    RunFlags.default [("delivery", 1)] false haccepted
    (StillRequested.refl (requested 10) "ev_" resume_job_id) hruns).2 (by
      refine ⟨?_, htotal⟩
      rw [scores_of_edits, hscores]
      show report.criteria_results.map scoreOf = _
      rw [hscores]
      rfl)
  exact ⟨report, after, haccepted, hafter, hcarries⟩

/-- The reviewer edits the score, and the report keeps the old one. -/
theorem edited_score_is_dropped :
    ¬ ∀ report, Accepted compat_env awaiting "ev_" "rt_aaaaa" resume_job_id (edit_request 15)
        report → RunsToSuccess compat_env (requested 15) resume_job_id "tenant" RunFlags.default →
      ∃ after, ((run_job_once compat_env resume_job_id "tenant" RunFlags.default).final
          (requested 15)).store.evaluation_reports.get? "ev_" = some after ∧
        CarriesEdits [("delivery", 1)] false (edits_of compat_env (edit_request 15).edited_scores)
          report.criteria_results after.criteria_results after.total_score := by
  intro h
  obtain ⟨report, haccepted, hscores, -, hruns⟩ :=
    request_runs 15 (by decide +kernel) (by decide +kernel) (by decide +kernel)
  obtain ⟨after, hafter, hcarries⟩ := h report haccepted hruns
  have hkept : (((run_job_once compat_env resume_job_id "tenant" RunFlags.default).final
      (requested 15)).store.evaluation_reports.get? "ev_").map
        (fun after => after.criteria_results.map scoreOf) = some [("delivery", 10)] := by
    decide +kernel
  rw [hafter, Option.map_some, hcarries.scores, scores_of_edits, hscores] at hkept
  revert hkept
  decide +kernel

end bid_evaluation.edit_laws
