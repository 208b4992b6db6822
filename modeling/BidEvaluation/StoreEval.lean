-- `store_eval.py`: the creation of an evaluation, and the workflow that
-- ends its job. The graph runtime falls back to the compat path on any
-- exception but the interrupt.
import BidEvaluation.LanggraphRuntime

open dict_lib stepwise bid_evaluation.values bid_evaluation.core bid_evaluation.store_ops
  bid_evaluation.store_workflow bid_evaluation.store_admin bid_evaluation.evaluation_nodes
  bid_evaluation.langgraph_runtime

namespace bid_evaluation.store_eval

/-! ## Create an evaluation -/

/-- The report is made and stored first. The job and its event follow. -/
def create_evaluation_job (env : Env) (payload : EvaluationPayload) : Act (String × String) :=
  saving env do
    let evaluation_hex ← uuid4_hex12 env
    let job_hex ← uuid4_hex12 env
    let thread_id ← new_thread_id env "eval"
    let evaluation_id := "ev_" ++ evaluation_hex
    let job_id := "job_" ++ job_hex
    let _ ← run_evaluation_nodes_sequentially env
      (initial_state payload.tenant_id evaluation_id payload.trace_id thread_id job_id payload)
    let _ ← persist_job {
      job_id := job_id
      job_type := .evaluation
      status := .queued
      retry_count := 0
      thread_id := thread_id
      tenant_id := payload.tenant_id
      trace_id := payload.trace_id
      resource_type := "evaluation"
      resource_id := evaluation_id
      payload := .evaluation payload
      last_error := none
      errors := []
      error_code := none
      next_retry_at := none }
    let _ ← announce_job env payload.tenant_id job_id "evaluation" "evaluation" evaluation_id
    pure (evaluation_id, job_id)

/-! ## The workflow of an evaluation job -/

/-- Node checkpoints in order, each a node, a status and a payload. -/
def append_checkpoints (env : Env) (thread_id : String) (job : Job) (tenant_id : String)
    (nodes : List (String × String × PyDict)) : Act Unit :=
  nodes.foldlM (fun _ (node, status, payload) =>
    append_workflow_checkpoint env thread_id job.job_id tenant_id node status payload) ()

/-- The report of an evaluation, which an empty id does not have. -/
def stored_report (s : Store) (evaluation_id : String) : Option EvaluationReport :=
  if evaluation_id = "" then none else s.evaluation_reports.get? evaluation_id

def is_flagged (report : Option EvaluationReport) : Bool :=
  (report.map (fun report => report.needs_human_review)).getD false

def hitl_checkpoints (report : Option EvaluationReport) : List (String × String × PyDict) :=
  [("load_context", "succeeded", []),
    ("retrieve_evidence", "succeeded", []),
    ("evaluate_rules", "succeeded", []),
    ("score_with_llm", "succeeded", []),
    ("quality_gate", "hitl", [("decision", .str "hitl")]),
    ("human_review_interrupt", "needs_manual_decision",
      interrupt_dict (report.bind (fun report => report.interrupt)))]

def retrieved_count (report : EvaluationReport) : Nat :=
  ((report.criteria_results.flatMap (fun r => r.citations)).filter
    (fun c => c.chunk_id ≠ "")).length

def compat_checkpoints (evaluation_id : String) (report : Option EvaluationReport) :
    List (String × String × PyDict) :=
  [("load_context", "succeeded", [("evaluation_id", .str evaluation_id), ("project_id", .none)]),
    ("retrieve_evidence", "succeeded",
      [("retrieved_count", .int ((report.map retrieved_count).getD 0))]),
    ("evaluate_rules", "succeeded",
      [("redline_conflict", .bool ((report.map (fun r => r.redline_conflict)).getD false))]),
    ("score_with_llm", "succeeded",
      [("total_score", (report.map (fun r => PyVal.float r.total_score)).getD .none),
        ("confidence", (report.map (fun r => PyVal.float r.confidence)).getD .none)]),
    ("quality_gate", "succeeded",
      [("decision", .str (if is_flagged report then "hitl" else "pass"))]),
    ("finalize_report", "succeeded", []),
    ("persist_result", "succeeded", [])]

/-- The compat path writes its checkpoints and ends in success. It does not
ask again if the report is flagged. -/
def run_compat (env : Env) (job : Job) (tenant_id thread_id : String)
    (report : Option EvaluationReport) : Act RunResult := do
  append_checkpoints env thread_id job tenant_id (compat_checkpoints job.resource_id report)
  finish env job .succeeded tenant_id thread_id (some job.resource_id)

def run_evaluation_workflow (env : Env) (job : Job) (tenant_id : String) : Act RunResult := do
  let thread_id ← thread_of env job "eval"
  let w ← read
  let report := stored_report w.store job.resource_id
  let mode ← lift env.workflow_runtime
  match mode with
  | .compat =>
    if is_flagged report then do
      append_checkpoints env thread_id job tenant_id (hitl_checkpoints report)
      finish env job .needs_manual_decision tenant_id thread_id (some job.resource_id)
    else run_compat env job tenant_id thread_id report
  | .langgraph =>
    catching (run_evaluation_graph env job tenant_id)
      (fun e =>
        if env.true_stack_required then raise e
        else run_compat env job tenant_id thread_id report)

/-! ## The workflow of a resume job -/

def resume_checkpoints : List (String × String × PyDict) :=
  [("resume_received", "succeeded", []), ("finalize_report", "succeeded", []),
    ("persist_result", "succeeded", [])]

def run_resume_compat (env : Env) (job : Job) (tenant_id thread_id : String) :
    Act RunResult := do
  append_checkpoints env thread_id job tenant_id resume_checkpoints
  finish env job .succeeded tenant_id thread_id none

def run_resume_workflow (env : Env) (job : Job) (tenant_id : String) : Act RunResult := do
  let thread_id ← thread_of env job "resume"
  let mode ← lift env.workflow_runtime
  match mode with
  | .compat => run_resume_compat env job tenant_id thread_id
  | .langgraph =>
    catching (run_resume_graph env job tenant_id)
      (fun e =>
        if env.true_stack_required then raise e
        else run_resume_compat env job tenant_id thread_id)

end bid_evaluation.store_eval
