-- The operations of the service, each as one program, and the runs of the
-- whole system: any operations, in any order, from the empty store.
import BidEvaluation.RunJobOnce
import Mathlib.Data.List.Induction

open dict_lib stepwise bid_evaluation.values bid_evaluation.core bid_evaluation.store_ops
  bid_evaluation.store_workflow bid_evaluation.store_admin bid_evaluation.store_parse
  bid_evaluation.store_eval bid_evaluation.job_run

namespace bid_evaluation.operations

/-! ## Rollback -/

/-- `execute_rollback`, for the first breach that reaches the threshold. The
replay job is made and run at once. With no such breach nothing is done. -/
def execute_rollback (env : Env) (release_id tenant_id trace_id : String)
    (trigger_gate : Option String) : Act Unit :=
  saving env do
    match trigger_gate with
    | none => pure ()
    | some gate => do
      append_audit_log env tenant_id "rollback_executed"
        [("release_id", .str release_id), ("trigger_gate", .str gate), ("trace_id", .str trace_id)]
      let hex ← uuid4_hex12 env
      let thread_id ← new_thread_id env "replay"
      let job ← persist_job {
        job_id := "job_" ++ hex
        job_type := .replay_verification
        status := .queued
        retry_count := 0
        thread_id := thread_id
        tenant_id := tenant_id
        trace_id := trace_id
        resource_type := "job"
        resource_id := release_id
        payload := .replay release_id gate
        last_error := none
        errors := []
        error_code := none
        next_retry_at := none }
      let _ ← run_job_once env job.job_id tenant_id RunFlags.default
      append_audit_log env tenant_id "rollback_replay_verified"
        [("release_id", .str release_id), ("replay_job_id", .str job.job_id),
          ("trace_id", .str trace_id)]

/-! ## The operations -/

inductive Op where
  | upload (payload : UploadPayload) (has_file : Bool)
  | create_parse_job (document_id trace_id tenant_id : String)
  | create_evaluation_job (payload : EvaluationPayload)
  | consume_resume_token (evaluation_id resume_token tenant_id : String)
  | create_resume_job (evaluation_id : String) (payload : ResumePayload)
  | resume (evaluation_id resume_token : String) (payload : ResumePayload)
  | run_job_once (job_id tenant_id : String) (flags : RunFlags)
  | transition_job_status (job_id : String) (new_status : JobStatus) (tenant_id : Option String)
  | cancel_job (job_id tenant_id : String)
  | seed_dlq_item (job_id error_class error_code tenant_id : String)
  | requeue_dlq_item (dlq_id trace_id tenant_id : String)
  | discard_dlq_item (dlq_id reason reviewer_id reviewer_id_2 tenant_id trace_id : String)
  | execute_rollback (release_id tenant_id trace_id : String) (trigger_gate : Option String)

/-- Drop what a program returns. -/
def quiet (m : Act α) : Act Unit := do
  let _ ← m
  pure ()

def Op.act (env : Env) : Op → Act Unit
  | .upload payload has_file => quiet (create_upload_job env payload has_file)
  | .create_parse_job document_id trace_id tenant_id =>
    quiet (store_parse.create_parse_job env document_id trace_id tenant_id)
  | .create_evaluation_job payload => quiet (store_eval.create_evaluation_job env payload)
  | .consume_resume_token evaluation_id resume_token tenant_id =>
    quiet (store_workflow.consume_resume_token env evaluation_id resume_token tenant_id)
  | .create_resume_job evaluation_id payload =>
    quiet (store_workflow.create_resume_job env evaluation_id payload)
  | .resume evaluation_id resume_token payload =>
    quiet (execute_resume env evaluation_id resume_token payload)
  | .run_job_once job_id tenant_id flags => quiet (job_run.run_job_once env job_id tenant_id flags)
  | .transition_job_status job_id new_status tenant_id =>
    quiet (store_admin.transition_job_status env job_id new_status tenant_id)
  | .cancel_job job_id tenant_id => store_admin.cancel_job env job_id tenant_id
  | .seed_dlq_item job_id error_class error_code tenant_id =>
    quiet (store_ops.seed_dlq_item env job_id error_class error_code tenant_id)
  | .requeue_dlq_item dlq_id trace_id tenant_id =>
    quiet (store_ops.requeue_dlq_item env dlq_id trace_id tenant_id)
  | .discard_dlq_item dlq_id reason reviewer_id reviewer_id_2 tenant_id trace_id =>
    store_ops.discard_dlq_item env dlq_id reason reviewer_id reviewer_id_2 tenant_id trace_id
  | .execute_rollback release_id tenant_id trace_id trigger_gate =>
    operations.execute_rollback env release_id tenant_id trace_id trigger_gate

/-! ## Runs -/

/-- The world after an operation, whether it returned or raised. -/
def perform (env : Env) (w : World) (op : Op) : World := (op.act env).final w

def after (env : Env) (w : World) (ops : List Op) : World := ops.foldl (perform env) w

@[simp] theorem after_nil (env : Env) (w : World) : after env w [] = w := rfl

/-- Every state that the operations wrote, oldest first. -/
def history (env : Env) : World → List Op → List World
  | _, [] => []
  | w, op :: rest => (op.act env).written w ++ history env (perform env w op) rest

/-- The worlds that a run reaches when each operation is allowed in the
world in which it starts. -/
inductive Reached (env : Env) (allowed : World → Op → Prop) : World → Prop where
  | start : Reached env allowed World.start
  | step {w : World} (h : Reached env allowed w) (op : Op) (hop : allowed w op) :
      Reached env allowed (perform env w op)

theorem reached_after (env : Env) (ops : List Op) :
    Reached env (fun _ _ => True) (after env World.start ops) := by
  induction ops using List.reverseRecOn with
  | nil => exact .start
  | append_singleton ops op ih =>
    unfold after at ih ⊢
    rw [List.foldl_append]
    exact .step ih op trivial

/-! ## A service that always gets an answer -/

/-- The settings of a service on a persistent store, with an outside that
never fails. The laws that fail somewhere fail for a change of these. -/
def calm_env : Env where
  uuid4 := Uuid4.unary
  hex10 _ := "0123456789"
  clock n := n
  persistent := true
  worker_max_retries := 3
  worker_retry_backoff_base_ms := 1000
  worker_retry_backoff_max_ms := 30000
  retry_digest _ := 0
  audit_hash _ _ := ""
  chunk_hash document_id _ _ _ _ := document_id
  resume_token_ttl_hours := 24
  workflow_runtime := .ok .langgraph
  true_stack_required := false
  graph_fault _ := none
  interrupt_escapes _ := true
  put_object _ := .ok "object://"
  apply_legal_hold _ := .ok ()
  repr _ := "value"
  float_of_str _ := .ok 0
  sqrt _ := 0
  round2 x := x
  format_2f _ := ""
  format_2pct _ := ""
  format_1f _ := ""
  retrieve_evidence _ := .ok []
  apply_report_budget evidence := evidence
  llm_score_criteria _ := .ok ⟨10, some true, none, some 1, 0⟩
  mock_score_criteria _ := ⟨10, some true, none, some 1, 0⟩
  task_token_budget := 0
  task_cost_warn_ratio := 1
  task_cost_hard_ratio := 1
  mock_llm_enabled := true
  mineru _ := []
  local_parse _ := [[("text", .str "chunk")]]
  adapter _ := none
  index_prefix := "lightrag"
  index_answer _ := .written

def bid_file : UploadPayload where
  tenant_id := "tenant"
  trace_id := "trace"
  project_id := "project"
  supplier_id := "supplier"
  doc_type := "bid"
  filename := "bid.pdf"
  file_sha256 := "sha"
  file_size := 1

end bid_evaluation.operations
