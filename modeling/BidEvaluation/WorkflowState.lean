-- The views of an evaluation: `get_evaluation_report_for_tenant` of
-- `store_eval.py`, and `get_workflow_state` of `store_workflow.py` with what
-- it reads of the checkpoints.
import BidEvaluation.StoreEval
import Mathlib.Data.List.Sort

open dict_lib stepwise bid_evaluation.values bid_evaluation.core

namespace bid_evaluation.workflow_state

/-! ## The report -/

/-- The report as its tenant gets it. -/
structure ReportView where
  evaluation_id : String
  supplier_id : String
  total_score : Rat
  confidence : Rat
  citation_coverage : Rat
  risk_level : String
  criteria_results : List CriteriaResult
  citations : List Citation
  needs_human_review : Bool
  trace_id : String
  interrupt : Option Interrupt
  report_uri : Option String

/-- The citations of a stored report are objects, so none is resolved here. -/
def get_evaluation_report_for_tenant (evaluation_id tenant_id : String) :
    Act (Option ReportView) := do
  let w ← read
  match w.store.evaluation_reports.get? evaluation_id with
  | none => pure none
  | some report => do
    assert_tenant_scope report.tenant_id tenant_id
    pure (some {
      evaluation_id := report.evaluation_id
      supplier_id := report.supplier_id
      total_score := report.total_score
      confidence := report.confidence
      citation_coverage := report.citation_coverage
      risk_level := report.risk_level
      criteria_results := report.criteria_results
      citations := report.citations
      needs_human_review := report.needs_human_review
      trace_id := report.trace_id
      interrupt := report.interrupt
      report_uri := report.report_uri })

/-! ## The checkpoints -/

/-- At most the first hundred, by their number in the thread. What LangGraph
itself keeps of a thread is not among them. -/
def list_workflow_checkpoints (s : Store) (thread_id tenant_id : String) : List Checkpoint :=
  let rows := ((s.workflow_checkpoints.get? thread_id).getD []).filter
    (fun cp => cp.tenant_id = tenant_id)
  (rows.insertionSort (fun a b => a.seq ≤ b.seq)).take 100

/-- What the first checkpoint of a node has under a key. -/
def extract (node key : String) (default : PyVal) (absent : PyVal)
    (checkpoints : List Checkpoint) : PyVal :=
  match checkpoints.find? (fun cp => cp.node = node) with
  | none => absent
  | some cp => cp.payload.getD key default

def extract_query_bundle : List Checkpoint → PyVal :=
  extract "load_context" "query_bundle" .none .none

def extract_retrieved_chunks : List Checkpoint → PyVal :=
  extract "retrieve_evidence" "retrieved_chunks" (.list []) (.list [])

def extract_evidence_bundle : List Checkpoint → PyVal :=
  extract "retrieve_evidence" "evidence_bundle" .none .none

/-- An error of a job, or one that a checkpoint has. -/
inductive ErrorEntry where
  | of_job (error : ErrorInfo)
  | of_checkpoint (error : PyVal)

def job_errors (job : Job) : List ErrorInfo :=
  if job.errors = [] then job.last_error.toList else job.errors

def collect_errors (job : Option Job) (checkpoints : List Checkpoint) : List ErrorEntry :=
  let failed := checkpoints.filter (fun cp => cp.status = "error")
  let found := (failed.map (fun cp => PyDict.get cp.payload "error")).filter PyVal.truthy
  ((job.map job_errors).getD []).map .of_job ++ found.map .of_checkpoint

/-! ## The state of the workflow -/

structure StateIdentity where
  tenant_id : String
  project_id : Option String
  evaluation_id : String
  supplier_id : String

structure StateTrace where
  trace_id : String
  thread_id : String
  checkpoint_id : Option String

structure StateInputs where
  query_bundle : PyVal
  rule_pack_version : Option String

structure StateRetrieval where
  retrieved_chunks : PyVal
  evidence_bundle : PyVal

structure StateScoring where
  criteria_scores : List CriteriaResult
  total_score : Rat
  confidence : Rat
  citation_coverage : Rat

structure StateReview where
  requires_human_review : Bool
  human_review_payload : Option Interrupt
  human_decision : Option String
  resume_token : Option String

structure StateOutput where
  report_payload : ReportView
  status : Option JobStatus

structure StateRuntime where
  retry_count : Nat
  errors : List ErrorEntry

structure WorkflowState where
  identity : StateIdentity
  trace : StateTrace
  inputs : StateInputs
  retrieval : StateRetrieval
  scoring : StateScoring
  review : StateReview
  output : StateOutput
  runtime : StateRuntime

/-- The first job of the tenant on the evaluation, in the order in which the
jobs were made. -/
def find_job_by_evaluation_id (s : Store) (evaluation_id tenant_id : String) : Option Job :=
  s.jobs.values.find? (fun job => job.resource_id = evaluation_id ∧ job.tenant_id = tenant_id)

/-- The view of the report has no thread, no project and no rule pack, so the
state has none, and no checkpoint is ever read. -/
def get_workflow_state (evaluation_id tenant_id : String) : Act (Option WorkflowState) := do
  match ← get_evaluation_report_for_tenant evaluation_id tenant_id with
  | none => pure none
  | some report => do
    let w ← read
    let thread_id := ""
    let job := find_job_by_evaluation_id w.store evaluation_id tenant_id
    let checkpoints :=
      if thread_id = "" then [] else list_workflow_checkpoints w.store thread_id tenant_id
    pure (some {
      identity := {
        tenant_id := tenant_id
        project_id := none
        evaluation_id := evaluation_id
        supplier_id := report.supplier_id }
      trace := {
        trace_id := report.trace_id
        thread_id := thread_id
        checkpoint_id := checkpoints.getLast?.map (fun cp => cp.checkpoint_id) }
      inputs := {
        query_bundle := extract_query_bundle checkpoints
        rule_pack_version := none }
      retrieval := {
        retrieved_chunks := extract_retrieved_chunks checkpoints
        evidence_bundle := extract_evidence_bundle checkpoints }
      scoring := {
        criteria_scores := report.criteria_results
        total_score := report.total_score
        confidence := report.confidence
        citation_coverage := report.citation_coverage }
      review := {
        requires_human_review := report.needs_human_review
        human_review_payload := report.interrupt
        human_decision := none
        resume_token := report.interrupt.map (fun interrupt => interrupt.resume_token) }
      output := {
        report_payload := report
        status := job.map (fun job => job.status) }
      runtime := {
        retry_count := (job.map (fun job => job.retry_count)).getD 0
        errors := collect_errors job checkpoints } })

/-! ## What the views read -/

/-- The tenant of the report gets its state, with the status of the first job
on the evaluation. -/
theorem get_workflow_state.reads {w : World} {evaluation_id tenant_id : String}
    {report : EvaluationReport} (hreport : w.store.evaluation_reports.get? evaluation_id =
      some report) (howner : report.tenant_id = tenant_id) :
    ∃ state, (get_workflow_state evaluation_id tenant_id).result w = .ok (some state) ∧
      state.output.status = (find_job_by_evaluation_id w.store evaluation_id tenant_id).map
        (fun job => job.status) := by
  have hview : ∃ view, (get_evaluation_report_for_tenant evaluation_id tenant_id).result w =
      .ok (some view) ∧ (get_evaluation_report_for_tenant evaluation_id tenant_id).final w = w := by
    have hscope : (assert_tenant_scope report.tenant_id tenant_id : Act Unit) = pure () := by
      unfold assert_tenant_scope
      rw [if_neg (not_not.2 howner)]
    unfold get_evaluation_report_for_tenant
    rw [result_read, final_read, hreport]
    dsimp only
    rw [hscope]
    exact ⟨_, rfl, rfl⟩
  obtain ⟨view, hresult, hfinal⟩ := hview
  unfold get_workflow_state
  rw [result_bind hresult, hfinal]
  exact ⟨_, rfl, rfl⟩

end bid_evaluation.workflow_state
