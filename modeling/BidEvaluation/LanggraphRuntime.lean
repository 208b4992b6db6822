-- `langgraph_runtime.py`: the evaluation graph under LangGraph. LangGraph
-- itself is outside: it runs the nodes in edge order, merges their updates,
-- may raise around any node, and runs an interrupted node again from its
-- start on resume.
import BidEvaluation.EvaluationNodes

open dict_lib stepwise bid_evaluation.values bid_evaluation.core bid_evaluation.store_workflow
  bid_evaluation.store_admin bid_evaluation.evaluation_nodes

namespace bid_evaluation.langgraph_runtime

/-! ## The nodes of the graph -/

structure WorkflowIdentity where
  thread_id : String
  job_id : String
  tenant_id : String

/-- LangGraph or its checkpointer may raise here. -/
def graph_fault (env : Env) : Act Unit := do
  let n ← draw
  match env.graph_fault n with
  | some e => raise e
  | none => pure ()

/-- The checkpointer has the input of the interrupted node of a thread. -/
def save_interrupted (thread_id : String) (state : Option EvaluationState) : Act Unit :=
  write (fun w => { w with interrupted := Function.update w.interrupted thread_id state })

def interrupt_dict (interrupt : Option Interrupt) : PyDict :=
  match interrupt with
  | none => []
  | some i => [("type", .str "human_review"), ("evaluation_id", .str i.evaluation_id),
      ("reasons", .list (i.reasons.map .str)),
      ("suggested_actions", .list (i.suggested_actions.map .str)),
      ("resume_token", .str i.resume_token)]

/-- `interrupt(payload)` stops a first pass. On a resume it returns. -/
def interrupt (env : Env) (id : WorkflowIdentity) (resuming : Bool) (state : EvaluationState) :
    Act Unit := do
  graph_fault env
  if resuming then save_interrupted id.thread_id none
  else do
    save_interrupted id.thread_id (some state)
    raise .graph_interrupt

/-- `_quality_gate_node`. It calls the gate before the interrupt, so a
resume calls the gate a second time. -/
def quality_gate_node (env : Env) (id : WorkflowIdentity) (resuming : Bool)
    (state : EvaluationState) : Act EvaluationState := do
  let merged ← node_quality_gate env state
  if merged.needs_human_review then do
    append_workflow_checkpoint env id.thread_id id.job_id id.tenant_id "quality_gate" "hitl"
      [("decision", .str "hitl")]
    append_workflow_checkpoint env id.thread_id id.job_id id.tenant_id "human_review_interrupt"
      "needs_manual_decision" (interrupt_dict merged.interrupt_payload)
    interrupt env id resuming state
    pure merged
  else do
    append_node_checkpoint env id.thread_id id.job_id id.tenant_id "quality_gate"
      [("decision", .str "pass")]
    if resuming then do
      save_interrupted id.thread_id none
      pure merged
    else pure merged

def node_fn (env : Env) (state : EvaluationState) : Node → Act EvaluationState
  | .load_context => node_load_context env state
  | .retrieve_evidence => node_retrieve_evidence env state
  | .evaluate_rules => node_evaluate_rules env state
  | .score_with_llm => node_score_with_llm env state
  | .quality_gate => node_quality_gate env state
  | .finalize_report => node_finalize_report state
  | .persist_result => node_persist_result env state

/-- `_wrap`: a checkpoint, then the node. The gate has its own wrapper. -/
def graph_node (env : Env) (id : WorkflowIdentity) (resuming : Bool) (state : EvaluationState)
    (node : Node) : Act EvaluationState := do
  graph_fault env
  if node = .quality_gate then quality_gate_node env id resuming state
  else do
    append_node_checkpoint env id.thread_id id.job_id id.tenant_id node.word []
    node_fn env state node

/-- The nodes from the entry point to the end. -/
def edge_order : List Node :=
  [.load_context, .retrieve_evidence, .evaluate_rules, .score_with_llm, .quality_gate,
    .finalize_report, .persist_result]

/-- The nodes from the interrupted one to the end. -/
def after_interrupt : List Node := [.quality_gate, .finalize_report, .persist_result]

/-! ## Invoke -/

/-- An interrupt ends `invoke` with `GraphInterrupt`, or with a normal
return that carries `__interrupt__`. -/
def on_interrupt (env : Env) : PyErr → Act Unit
  | .graph_interrupt => do
    let n ← draw
    if env.interrupt_escapes n then raise .graph_interrupt else pure ()
  | e => raise e

def run_nodes (env : Env) (id : WorkflowIdentity) (resuming : Bool) (nodes : List Node)
    (state : EvaluationState) : Act Unit := do
  let _ ← nodes.foldlM (graph_node env id resuming) state
  graph_fault env

/-- `compiled.invoke(state, ..)`: a new run of the thread from the start. -/
def invoke (env : Env) (id : WorkflowIdentity) (state : EvaluationState) : Act Unit := do
  save_interrupted id.thread_id none
  catching (run_nodes env id false edge_order state) (on_interrupt env)

/-- `compiled.invoke(Command(resume=..), ..)`. A thread that waits at no
interrupt has no node to run. -/
def invoke_resume (env : Env) (id : WorkflowIdentity) : Act Unit := do
  let w ← read
  match w.interrupted id.thread_id with
  | none => graph_fault env
  | some state => catching (run_nodes env id true after_interrupt state) (on_interrupt env)

/-! ## Run and resume -/

def no_payload : EvaluationPayload := ⟨"", "", "", "", "", ⟨[], false⟩⟩

def evaluation_payload (job : Job) : EvaluationPayload :=
  match job.payload with
  | .evaluation payload => payload
  | _ => no_payload

/-- The state at the entry point. The fields that nodes set have the
defaults that their readers use. -/
def initial_state (tenant_id evaluation_id trace_id thread_id job_id : String)
    (payload : EvaluationPayload) : EvaluationState where
  tenant_id := tenant_id
  project_id := payload.project_id
  evaluation_id := evaluation_id
  supplier_id := payload.supplier_id
  trace_id := trace_id
  thread_id := thread_id
  job_id := job_id
  payload := payload
  rule_pack_version := payload.rule_pack_version
  include_doc_types := payload.evaluation_scope.include_doc_types
  force_hitl := payload.evaluation_scope.force_hitl
  rules := .dict []
  criteria_defs := []
  criteria_weights := []
  hard_constraint_pass := true
  include_doc_types_normalized := []
  criteria_evidence := []
  citations_all_ids := []
  redline_conflict := false
  criteria_results := []
  unsupported_claims := []
  total_score := 0
  confidence := 0
  citation_coverage := 0
  score_deviation_pct := 0
  needs_human_review := false
  hitl_reasons := []
  interrupt_payload := none
  report := none
  edited_scores := []
  cost_exceeded := false
  cost_total_tokens := 0

def thread_of (env : Env) (job : Job) (kind : String) : Act String :=
  if job.thread_id = "" then new_thread_id env kind else pure job.thread_id

/-- What a workflow returns for its job. -/
def workflow_result (job : Job) (status : JobStatus) (thread_id : String)
    (evaluation_id : Option String) : RunResult :=
  ⟨job.job_id, status, some thread_id, evaluation_id, none, none, none, none⟩

/-- The job goes to the status in which its workflow ended. -/
def finish (env : Env) (job : Job) (status : JobStatus) (tenant_id thread_id : String)
    (evaluation_id : Option String) : Act RunResult := do
  let job ← transition_job_status env job.job_id status (some tenant_id)
  pure (workflow_result job status thread_id evaluation_id)

/-- `invoke` on the state that the job gives. -/
def invoke_evaluation (env : Env) (job : Job) (tenant_id thread_id : String) : Act Unit :=
  invoke env ⟨thread_id, job.job_id, tenant_id⟩
    (initial_state tenant_id job.resource_id job.trace_id thread_id job.job_id
      (evaluation_payload job))

def run_evaluation_graph (env : Env) (job : Job) (tenant_id : String) : Act RunResult := do
  let thread_id ← thread_of env job "eval"
  catching
    (do
      invoke_evaluation env job tenant_id thread_id
      finish env job .succeeded tenant_id thread_id (some job.resource_id))
    (fun
      | .graph_interrupt =>
        finish env job .needs_manual_decision tenant_id thread_id (some job.resource_id)
      | e => raise e)

def resume_rejected : Act α :=
  raise_api "WF_INTERRUPT_RESUME_INVALID" "resume rejected by workflow" "business_rule" false 409

def run_resume_graph (env : Env) (job : Job) (tenant_id : String) : Act RunResult := do
  let thread_id ← thread_of env job "resume"
  catching (invoke_resume env ⟨thread_id, job.job_id, tenant_id⟩)
    (fun
      | .graph_interrupt => resume_rejected
      | e => raise e)
  finish env job .succeeded tenant_id thread_id none

end bid_evaluation.langgraph_runtime
