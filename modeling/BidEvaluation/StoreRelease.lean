-- `store_release.py`: the replay of a release, its readiness, its pipeline
-- and its rollout. The samples of `run_data_feedback` have a module of
-- their own, and `execute_rollback` is one of the operations.
import BidEvaluation.Lib.Zoom
import BidEvaluation.Operations
import BidEvaluation.WorkflowState
import Mathlib.Data.List.Dedup
import Mathlib.Data.List.Sort

open dict_lib stepwise zoom bid_evaluation.values bid_evaluation.core bid_evaluation.store_admin
  bid_evaluation.store_parse bid_evaluation.store_workflow bid_evaluation.store_eval
  bid_evaluation.job_run bid_evaluation.workflow_state

namespace bid_evaluation.store_release

/-! ## The records -/

/-- What `run_release_replay_e2e` returns. -/
structure ReplayData where
  replay_run_id : String
  release_id : String
  tenant_id : String
  parse_job_id : String
  parse_status : JobStatus
  evaluation_id : String
  evaluation_job_id : String
  resume_job_id : Option String
  needs_human_review : Bool
  passed : Bool

structure ReplayRun extends ReplayData where
  trace_id : String
  created_at : Int

/-- What `evaluate_release_readiness` returns. -/
structure Readiness where
  assessment_id : String
  release_id : String
  tenant_id : String
  dataset_version : String
  admitted : Bool
  failed_checks : List String
  replay_passed : Bool
  gate_results : List (String × Bool)

structure Assessment extends Readiness where
  trace_id : String
  created_at : Int

structure RolloutPolicy where
  release_id : String
  tenant_whitelist : List String
  enabled_project_sizes : List String
  high_risk_hitl_enforced : Bool
  tenant_id : String
  updated_at : Int

/-- The part of the store that only the release calls write. -/
structure Releases where
  release_rollout_policies : Dict String RolloutPolicy
  release_replay_runs : Dict String ReplayRun
  release_readiness_assessments : Dict String Assessment

structure Desk where
  world : World
  releases : Releases

def Desk.start : Desk := ⟨World.start, ⟨Dict.empty, Dict.empty, Dict.empty⟩⟩

abbrev ReleaseAct := Prog Desk PyErr

/-- The settings of the release calls. A set of texts is walked in an order
that nothing says more about. -/
structure ReleaseEnv extends Env where
  hex32 : Nat → String
  p6_readiness_required : Bool
  release_canary_ratio : Rat
  release_canary_duration_min : Int
  rollback_max_minutes : Int
  set_order : List String → List String
  set_order_perm : ∀ l, (set_order l).Perm l.dedup

/-- An operation that does not see the releases. -/
def on_world (m : Act α) : ReleaseAct α := zoomed Desk.world (fun d w => { d with world := w }) m

def update_releases (f : Releases → Releases) : ReleaseAct Unit :=
  write (fun d => { d with releases := f d.releases })

/-! ## The replay -/

structure ReplayArgs where
  release_id : String
  tenant_id : String
  trace_id : String
  project_id : String
  supplier_id : String
  doc_type : String
  force_hitl : Bool
  decision : String

def uuid4_hex (env : ReleaseEnv) : Act String := do
  let n ← draw
  pure (env.hex32 n)

def replay_upload (args : ReplayArgs) (file_sha256 : String) : UploadPayload where
  tenant_id := args.tenant_id
  trace_id := args.trace_id
  project_id := args.project_id
  supplier_id := args.supplier_id
  doc_type := args.doc_type
  filename := args.release_id ++ ".pdf"
  file_sha256 := file_sha256
  file_size := 128

def replay_evaluation (args : ReplayArgs) : EvaluationPayload where
  tenant_id := args.tenant_id
  trace_id := args.trace_id
  project_id := args.project_id
  supplier_id := args.supplier_id
  rule_pack_version := "v1.0.0"
  evaluation_scope := ⟨[args.doc_type], args.force_hitl⟩

def replay_resume (args : ReplayArgs) : ResumePayload where
  tenant_id := args.tenant_id
  trace_id := args.trace_id
  decision := args.decision
  comment := "release replay auto resume"
  reviewer_id := "system_replay"
  edited_scores := []

/-- The upload of a known file has no job, and `None` names none. -/
def run_upload (env : ReleaseEnv) (args : ReplayArgs) : Option String → Act (String × JobStatus)
  | none => job_not_found
  | some job_id => do
    let parse_result ← run_job_once env.toEnv job_id args.tenant_id RunFlags.default
    pure (job_id, parse_result.final_status)

/-- The token that the report of a forced review waits for. -/
def waiting_token (force_hitl : Bool) (report : Option ReportView) : Option String :=
  if force_hitl then
    (report.bind (fun report => report.interrupt)).bind fun interrupt =>
      if interrupt.resume_token = "" then none else some interrupt.resume_token
  else none

def auto_resume (env : ReleaseEnv) (args : ReplayArgs) (evaluation_id : String) :
    Option String → Act (Option String)
  | none => pure none
  | some token => do
    let consumed ← consume_resume_token env.toEnv evaluation_id token args.tenant_id
    if consumed then do
      let resume_job_id ← create_resume_job env.toEnv evaluation_id (replay_resume args)
      let _ ← run_job_once env.toEnv resume_job_id args.tenant_id RunFlags.default
      pure (some resume_job_id)
    else pure none

def needs_review (report : Option ReportView) : Bool :=
  (report.map (fun report => report.needs_human_review)).getD false

/-- The replay, up to its record. -/
def replay (env : ReleaseEnv) (args : ReplayArgs) : Act ReplayData := do
  let hex ← uuid4_hex12 env.toEnv
  let file_sha256 ← uuid4_hex env
  let upload ← create_upload_job env.toEnv (replay_upload args file_sha256) false
  let (parse_job_id, parse_status) ← run_upload env args upload.2
  let (evaluation_id, evaluation_job_id) ←
    create_evaluation_job env.toEnv (replay_evaluation args)
  let report ← get_evaluation_report_for_tenant evaluation_id args.tenant_id
  let resume_job_id ← auto_resume env args evaluation_id (waiting_token args.force_hitl report)
  let final_report ← get_evaluation_report_for_tenant evaluation_id args.tenant_id
  let needs_human_review := needs_review final_report
  pure {
    replay_run_id := "rpy_" ++ hex
    release_id := args.release_id
    tenant_id := args.tenant_id
    parse_job_id := parse_job_id
    parse_status := parse_status
    evaluation_id := evaluation_id
    evaluation_job_id := evaluation_job_id
    resume_job_id := resume_job_id
    needs_human_review := needs_human_review
    passed := parse_status = .succeeded ∧ (args.force_hitl = false ∨ needs_human_review = false) }

def run_release_replay_e2e (env : ReleaseEnv) (args : ReplayArgs) : ReleaseAct ReplayData := do
  let data ← on_world (replay env args)
  let created_at ← on_world (utcnow env.toEnv)
  let run : ReplayRun := { data with trace_id := args.trace_id, created_at := created_at }
  update_releases (fun r => { r with
    release_replay_runs := r.release_replay_runs.set data.replay_run_id run })
  on_world (append_audit_log env.toEnv args.tenant_id "release_replay_e2e_executed"
    [("release_id", .str args.release_id), ("replay_run_id", .str data.replay_run_id),
      ("passed", .bool data.passed), ("trace_id", .str args.trace_id)])
  on_world (save_state env.toEnv)
  pure data

/-! ## The readiness -/

structure ReadinessArgs where
  release_id : String
  tenant_id : String
  trace_id : String
  dataset_version : Option String
  replay_passed : Bool
  gate_results : PyDict

def expected_gates : List String :=
  ["quality", "performance", "security", "cost", "rollout", "rollback", "ops"]

def normalized_gate_results (gate_results : PyDict) : List (String × Bool) :=
  expected_gates.map fun name => (name, (PyDict.getD gate_results name (.bool false)).truthy)

def version_checks (dataset_version : String) : List String :=
  if strip dataset_version = "" then ["DATASET_VERSION_REQUIRED"] else []

def gate_checks (gate_results : List (String × Bool)) : List String :=
  (gate_results.filter (fun gate => !gate.2)).map fun gate => gate.1.toUpper ++ "_GATE_FAILED"

def replay_checks (replay_passed : Bool) : List String :=
  if replay_passed then [] else ["REPLAY_E2E_FAILED"]

def readiness (args : ReadinessArgs) (assessment_id : String) : Readiness :=
  let dataset_version := args.dataset_version.getD ""
  let gate_results := normalized_gate_results args.gate_results
  let failed_checks := version_checks dataset_version ++ gate_checks gate_results ++
    replay_checks args.replay_passed
  { assessment_id := assessment_id
    release_id := args.release_id
    tenant_id := args.tenant_id
    dataset_version := dataset_version
    admitted := failed_checks = []
    failed_checks := failed_checks
    replay_passed := args.replay_passed
    gate_results := gate_results }

/-- A list of texts in an audit entry. -/
def texts (l : List String) : PyVal := .list (l.map .str)

/-- `evaluate_release_readiness` of the store in memory. -/
def assess (env : ReleaseEnv) (args : ReadinessArgs) : ReleaseAct Readiness := do
  let hex ← on_world (uuid4_hex12 env.toEnv)
  let data := readiness args ("ra_" ++ hex)
  let created_at ← on_world (utcnow env.toEnv)
  let assessment : Assessment :=
    { data with trace_id := args.trace_id, created_at := created_at }
  update_releases (fun r => { r with
    release_readiness_assessments :=
      r.release_readiness_assessments.set data.assessment_id assessment })
  on_world (append_audit_log env.toEnv args.tenant_id "release_readiness_evaluated"
    [("release_id", .str args.release_id), ("assessment_id", .str data.assessment_id),
      ("dataset_version", .str data.dataset_version), ("admitted", .bool data.admitted),
      ("failed_checks", texts data.failed_checks), ("trace_id", .str args.trace_id)])
  pure data

/-- The persistent stores override the call, and the pipeline calls theirs. -/
def evaluate_release_readiness (env : ReleaseEnv) (args : ReadinessArgs) :
    ReleaseAct Readiness := do
  let data ← assess env args
  on_world (save_state env.toEnv)
  pure data

/-! ## The pipeline -/

structure PipelineData where
  pipeline_id : String
  release_id : String
  tenant_id : String
  dataset_version : String
  stage : String
  admitted : Bool
  failed_checks : List String
  readiness_assessment_id : String
  canary_ratio : Rat
  canary_duration_min : Int
  rollback_max_minutes : Int
  readiness_required : Bool
  readiness : Option Readiness

/-- The readiness, where it is required. -/
def required_readiness (env : ReleaseEnv) (args : ReadinessArgs) :
    ReleaseAct (Option Readiness) :=
  if env.p6_readiness_required then do
    let data ← evaluate_release_readiness env args
    pure (some data)
  else pure none

def pipeline_data (env : ReleaseEnv) (args : ReadinessArgs) (pipeline_id : String)
    (found : Option Readiness) : PipelineData :=
  let admitted := (found.map (fun data => data.admitted)).getD true
  { pipeline_id := pipeline_id
    release_id := args.release_id
    tenant_id := args.tenant_id
    dataset_version := args.dataset_version.getD ""
    stage := if admitted then "release_ready" else "release_blocked"
    admitted := admitted
    failed_checks := (found.map (fun data => data.failed_checks)).getD []
    readiness_assessment_id := (found.map (fun data => data.assessment_id)).getD ""
    canary_ratio := env.release_canary_ratio
    canary_duration_min := env.release_canary_duration_min
    rollback_max_minutes := env.rollback_max_minutes
    readiness_required := env.p6_readiness_required
    readiness := found }

def execute_release_pipeline (env : ReleaseEnv) (args : ReadinessArgs) :
    ReleaseAct PipelineData := do
  let hex ← on_world (uuid4_hex12 env.toEnv)
  let found ← required_readiness env args
  let data := pipeline_data env args ("pl_" ++ hex) found
  on_world (append_audit_log env.toEnv args.tenant_id "release_pipeline_executed"
    [("release_id", .str args.release_id), ("pipeline_id", .str data.pipeline_id),
      ("dataset_version", .str data.dataset_version), ("stage", .str data.stage),
      ("admitted", .bool data.admitted), ("failed_checks", texts data.failed_checks),
      ("trace_id", .str args.trace_id)])
  on_world (save_state env.toEnv)
  pure data

/-! ## The rollout -/

structure PlanArgs where
  release_id : String
  tenant_whitelist : List String
  enabled_project_sizes : List String
  high_risk_hitl_enforced : Bool
  tenant_id : String

def size_order (size : String) : Nat :=
  if size = "small" then 1
  else if size = "medium" then 2
  else if size = "large" then 3
  else 999

/-- The texts that are not blank, stripped. -/
def stripped (l : List String) : List String := (l.map strip).filter (fun x => x ≠ "")

/-- `sorted` of a set of texts, in whose order no two are equal. -/
def sorted_set (l : List String) : List String := l.dedup.insertionSort (fun x y => x ≤ y)

/-- `sorted` of a set by the size. Sizes of one rank stay as the set has them. -/
def sorted_sizes (env : ReleaseEnv) (l : List String) : List String :=
  (env.set_order l).insertionSort (fun x y => size_order x ≤ size_order y)

def rollout_policy (env : ReleaseEnv) (args : PlanArgs) (updated_at : Int) : RolloutPolicy where
  release_id := args.release_id
  tenant_whitelist := sorted_set (stripped args.tenant_whitelist)
  enabled_project_sizes := sorted_sizes env (stripped args.enabled_project_sizes)
  high_risk_hitl_enforced := args.high_risk_hitl_enforced
  tenant_id := args.tenant_id
  updated_at := updated_at

/-- Returns the release, its tenants, its sizes and whether a review is forced. -/
def upsert_rollout_policy (env : ReleaseEnv) (args : PlanArgs) :
    ReleaseAct (String × List String × List String × Bool) := do
  let updated_at ← on_world (utcnow env.toEnv)
  let policy := rollout_policy env args updated_at
  update_releases (fun r => { r with
    release_rollout_policies := r.release_rollout_policies.set args.release_id policy })
  on_world (save_state env.toEnv)
  pure (policy.release_id, policy.tenant_whitelist, policy.enabled_project_sizes,
    policy.high_risk_hitl_enforced)

structure RolloutDecision where
  release_id : String
  admitted : Bool
  stage : String
  matched_whitelist : Bool
  force_hitl : Bool
  reasons : List String
deriving DecidableEq

def rollout_decision (release_id tenant_id project_size : String) (high_risk : Bool)
    (policy : RolloutPolicy) : RolloutDecision :=
  let matched_whitelist := tenant_id ∈ policy.tenant_whitelist
  let reasons := (if matched_whitelist then [] else ["TENANT_NOT_IN_WHITELIST"]) ++
    (if project_size ∈ policy.enabled_project_sizes then [] else ["PROJECT_SIZE_NOT_ENABLED"])
  { release_id := release_id
    admitted := reasons = []
    stage := "tenant_whitelist+project_size"
    matched_whitelist := matched_whitelist
    force_hitl := high_risk && policy.high_risk_hitl_enforced
    reasons := reasons }

def decide_rollout (release_id tenant_id project_size : String) (high_risk : Bool) :
    ReleaseAct RolloutDecision := do
  let d ← read
  match d.releases.release_rollout_policies.get? release_id with
  | none => raise (.api ⟨"RELEASE_POLICY_NOT_FOUND", "release rollout policy not found",
      "validation", false, 404⟩)
  | some policy => pure (rollout_decision release_id tenant_id project_size high_risk policy)

/-! ## Calls -/

/-- The calls that write: the operations of the service and the release calls. -/
inductive Call where
  | op (operation : operations.Op)
  | replay (args : ReplayArgs)
  | readiness (args : ReadinessArgs)
  | pipeline (args : ReadinessArgs)
  | plan (args : PlanArgs)

/-- Drop what a call returns. -/
def quiet (m : ReleaseAct α) : ReleaseAct Unit := do
  let _ ← m
  pure ()

def Call.act (env : ReleaseEnv) : Call → ReleaseAct Unit
  | .op operation => on_world (operation.act env.toEnv)
  | .replay args => quiet (run_release_replay_e2e env args)
  | .readiness args => quiet (evaluate_release_readiness env args)
  | .pipeline args => quiet (execute_release_pipeline env args)
  | .plan args => quiet (upsert_rollout_policy env args)

/-- Every state that the calls wrote, oldest first. -/
def desks (env : ReleaseEnv) : Desk → List Call → List Desk
  | _, [] => []
  | d, call :: rest => (call.act env).written d ++ desks env ((call.act env).final d) rest

/-- The desk after some calls, whether they returned or raised. -/
def after (env : ReleaseEnv) (d : Desk) (calls : List Call) : Desk :=
  calls.foldl (fun d call => (call.act env).final d) d

end bid_evaluation.store_release
