-- `store_workflow.py`: resume tokens, workflow checkpoints and the job
-- that an accepted resume makes.
import BidEvaluation.StoreOps

open dict_lib stepwise bid_evaluation.values bid_evaluation.core bid_evaluation.store_ops

namespace bid_evaluation.store_workflow

/-! ## Resume tokens -/

def register_resume_token (env : Env) (evaluation_id resume_token tenant_id : String)
    (reasons : List String) : Act Unit :=
  saving env do
    let issued_at ← utcnow env
    let record : ResumeToken := ⟨resume_token, tenant_id, false, reasons, issued_at, none⟩
    update (fun s => { s with resume_tokens := s.resume_tokens.set evaluation_id record })

/-- One hour in microseconds, the unit of the clock. -/
def hour : Int := 3600 * 1000 * 1000

def validate_resume_token (env : Env) (evaluation_id resume_token tenant_id : String) :
    Act Bool := do
  let w ← read
  match w.store.resume_tokens.get? evaluation_id with
  | none => pure false
  | some record => do
    assert_tenant_scope record.tenant_id tenant_id
    if record.resume_token ≠ resume_token ∨ record.used then pure false
    else do
      let now ← utcnow env
      pure (now ≤ record.issued_at + env.resume_token_ttl_hours * hour)

/-- The stored record of a token, marked used. -/
def use_token (evaluation_id : String) (used_at : Int) (s : Store) : Store :=
  match s.resume_tokens.get? evaluation_id with
  | none => s
  | some record =>
    let record := { record with used := true, used_at := some used_at }
    { s with resume_tokens := s.resume_tokens.set evaluation_id record }

def consume_resume_token (env : Env) (evaluation_id resume_token tenant_id : String) :
    Act Bool :=
  saving env do
    let valid ← validate_resume_token env evaluation_id resume_token tenant_id
    if valid then do
      let used_at ← utcnow env
      update (use_token evaluation_id used_at)
      pure true
    else pure false

/-! ## Checkpoints -/

def append_workflow_checkpoint (env : Env) (thread_id job_id tenant_id node status : String)
    (payload : PyDict) : Act Unit := do
  let hex ← uuid4_hex12 env
  let created_at ← utcnow env
  update (fun s =>
    let existing := (s.workflow_checkpoints.get? thread_id).getD []
    let checkpoint : Checkpoint :=
      ⟨"cp_" ++ hex, thread_id, job_id, existing.length + 1, node, status, payload, tenant_id,
        created_at⟩
    { s with workflow_checkpoints :=
      s.workflow_checkpoints.set thread_id (existing ++ [checkpoint]) })

/-- `_append_node_checkpoint` with its default status. -/
def append_node_checkpoint (env : Env) (thread_id job_id tenant_id node : String)
    (payload : PyDict) : Act Unit :=
  append_workflow_checkpoint env thread_id job_id tenant_id node "succeeded" payload

/-! ## The resume job -/

def get_report (s : Store) (evaluation_id tenant_id : String) : Option EvaluationReport :=
  (s.evaluation_reports.get? evaluation_id).filter (fun report => report.tenant_id = tenant_id)

/-- The thread of the report, or a new one. -/
def resume_thread_id (env : Env) (report : Option EvaluationReport) : Act String :=
  let thread_id := (report.map (fun report => report.thread_id)).getD ""
  if thread_id = "" then new_thread_id env "resume" else pure thread_id

/-- An accepted resume clears the flag of the report. -/
def clear_review (env : Env) (report : Option EvaluationReport) : Act Unit :=
  match report with
  | none => pure ()
  | some report =>
    persist_evaluation_report env { report with needs_human_review := false, interrupt := none }

def create_resume_job (env : Env) (evaluation_id : String) (payload : ResumePayload) :
    Act String :=
  saving env do
    let hex ← uuid4_hex12 env
    let tenant_id := payload.tenant_id
    let w ← read
    let report := get_report w.store evaluation_id tenant_id
    let thread_id ← resume_thread_id env report
    let job ← persist_job {
      job_id := "job_" ++ hex
      job_type := .resume
      status := .queued
      retry_count := 0
      thread_id := thread_id
      tenant_id := tenant_id
      trace_id := payload.trace_id
      resource_type := "evaluation"
      resource_id := evaluation_id
      payload := .resume payload
      last_error := none
      errors := []
      error_code := none
      next_retry_at := none }
    clear_review env report
    append_audit_log env tenant_id "resume_submitted"
      [("evaluation_id", .str evaluation_id), ("reviewer_id", .str payload.reviewer_id),
        ("decision", .str payload.decision), ("comment", .str payload.comment),
        ("trace_id", .str payload.trace_id)]
    let _ ← announce_job env tenant_id job.job_id "resume" "evaluation" evaluation_id
    pure job.job_id

/-- The body of the resume route: the token, then the job. -/
def execute_resume (env : Env) (evaluation_id resume_token : String) (payload : ResumePayload) :
    Act String := do
  let consumed ← consume_resume_token env evaluation_id resume_token payload.tenant_id
  if consumed then create_resume_job env evaluation_id payload
  else
    raise_api "WF_INTERRUPT_RESUME_INVALID" "resume token expired or mismatched"
      "business_rule" false 409

end bid_evaluation.store_workflow
