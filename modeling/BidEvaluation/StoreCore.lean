-- `store.py`: the settings of a store, its draws from the outside, and the
-- small writes that every operation is made of. A program here is a `Prog`
-- over `World`: it has each state that the Python code writes.
import BidEvaluation.Store

open dict_lib stepwise bid_evaluation.values

namespace bid_evaluation.core

/-! ## The outside -/

/-- `_workflow_runtime_mode` when it does not raise. -/
inductive RuntimeMode where
  | langgraph
  | compat
deriving DecidableEq

/-- What `llm_score_criteria` returns. A missing key is `none`. -/
structure LlmResult where
  score : Rat
  hard_pass : Option Bool
  reason : Option String
  confidence : Option Rat
  total_tokens : Int

/-- How one call of the MinerU service ended: it raised with an error
code, or it has chunks. -/
inductive MineruOutcome where
  | failed (error_code : String)
  | completed (chunks : List PyDict)

/-- What the index service answered to a write. -/
inductive IndexAnswer where
  | written
  | swallowed_failure
  | raises (e : PyErr)

/-- The settings, and every answer of the outside. An answer that can
change from call to call takes the number of the draw. -/
structure Env where
  uuid4 : Uuid4
  hex10 : Nat → String
  clock : Nat → Int
  /-- `SqliteBackedStore` saves a snapshot after each mutating call. -/
  persistent : Bool
  worker_max_retries : Nat
  worker_retry_backoff_base_ms : Nat
  worker_retry_backoff_max_ms : Nat
  /-- The first two bytes of the SHA-256 of a seed, as a number. -/
  retry_digest : String → Nat
  audit_hash : AuditLog → String → String
  chunk_hash : String → Int → List PyVal → PyVal → String → String
  resume_token_ttl_hours : Nat
  workflow_runtime : Except PyErr RuntimeMode
  true_stack_required : Bool
  /-- An exception that LangGraph raises before a node, if it does. -/
  graph_fault : Nat → Option PyErr
  /-- Whether `invoke` lets `GraphInterrupt` out, or returns normally. -/
  interrupt_escapes : Nat → Bool
  put_object : Nat → Except PyErr String
  apply_legal_hold : Nat → Except PyErr Unit
  repr : PyVal → String
  float_of_str : String → Except PyErr Rat
  sqrt : Rat → Rat
  round2 : Rat → Rat
  format_2f : Rat → String
  format_2pct : Rat → String
  format_1f : Rat → String
  retrieve_evidence : Nat → Except PyErr (List Evidence)
  apply_report_budget : List (String × List Evidence) → List (String × List Evidence)
  llm_score_criteria : Nat → Except PyErr LlmResult
  mock_score_criteria : Nat → LlmResult
  task_token_budget : Int
  task_cost_warn_ratio : Rat
  task_cost_hard_ratio : Rat
  mock_llm_enabled : Bool
  /-- The calls of the MinerU service for one document: none when no key
  is set, two when the upload and then the presigned address are tried. -/
  mineru : Nat → List MineruOutcome
  /-- The chunks of the local parser. It gives none when the file cannot
  be read or the parser raises. -/
  local_parse : Nat → List PyDict
  /-- One adapter of the registry, by name. -/
  adapter : String → Option (Nat → Except PyErr PyDict)
  index_prefix : String
  index_answer : Nat → IndexAnswer

abbrev Act := Prog World PyErr

/-! ## Draws -/

/-- The number of the next draw. -/
def draw : Act Nat := do
  let w ← read
  write (fun w => { w with draws := w.draws + 1 })
  pure w.draws

def uuid4_hex12 (env : Env) : Act String := do
  let n ← draw
  pure (env.uuid4.hex12 n)

def utcnow (env : Env) : Act Int := do
  let n ← draw
  pure (env.clock n)

def new_thread_id (env : Env) (kind : String) : Act String := do
  let n ← draw
  pure ("thr_" ++ kind ++ "_" ++ env.hex10 n)

/-! ## Errors -/

def raise_api (code message error_class : String) (retryable : Bool) (http_status : Nat) :
    Act α :=
  raise (.api ⟨code, message, error_class, retryable, http_status⟩)

def assert_tenant_scope (entity_tenant_id tenant_id : String) : Act Unit :=
  if entity_tenant_id ≠ tenant_id then
    raise_api "TENANT_SCOPE_VIOLATION" "tenant mismatch" "security_sensitive" false 403
  else pure ()

/-! ## The snapshot -/

/-- `_save_state` writes the whole store as one snapshot. -/
def save_state (env : Env) : Act Unit :=
  if env.persistent then write (fun w => { w with disk := some w.store }) else pure ()

/-- An operation that the persistent stores override: the operation, then
the snapshot. A raise leaves out the snapshot. -/
def saving (env : Env) (m : Act α) : Act α := do
  let data ← m
  save_state env
  pure data

/-- A write to the collections of the store. -/
def update (f : Store → Store) : Act Unit := write (fun w => { w with store := f w.store })

def persist_job (job : Job) : Act Job := do
  update (fun s => { s with jobs := s.jobs.put job })
  pure job

def persist_document (document : Document) : Act Unit :=
  update (fun s => { s with
    documents := s.documents.put document
    document_chunks := match s.document_chunks.get? document.document_id with
      | some _ => s.document_chunks
      | none => s.document_chunks.set document.document_id [] })

def persist_parse_manifest (manifest : ParseManifest) : Act Unit :=
  update (fun s => { s with parse_manifests := s.parse_manifests.put manifest })

def persist_dlq_item (item : DlqItem) : Act DlqItem := do
  update (fun s => { s with dlq_items := s.dlq_items.put item })
  pure item

/-! ## Reports -/

/-- The first active hold on an object. -/
def find_active_legal_hold (s : Store) (tenant_id object_type object_id : String) :
    Option LegalHold :=
  s.legal_hold_objects.values.find? (fun hold => hold.tenant_id = tenant_id ∧
    hold.object_type = object_type ∧ hold.object_id = object_id ∧ hold.status = "active")

/-- `put_object` of a blob, then the hold of its object moves to it. -/
def put_held_object (env : Env) (tenant_id object_type object_id : String) : Act String := do
  let n ← draw
  let storage_uri ← lift (env.put_object n)
  let w ← read
  match find_active_legal_hold w.store tenant_id object_type object_id with
  | none => pure storage_uri
  | some hold => do
    update (fun s => { s with legal_hold_objects :=
      s.legal_hold_objects.put { hold with storage_uri := some storage_uri } })
    let n ← draw
    lift (env.apply_legal_hold n)
    pure storage_uri

def archive_report_to_object_storage (env : Env) (report : EvaluationReport) :
    Act EvaluationReport :=
  if report.evaluation_id = "" then pure report
  else do
    let storage_uri ← put_held_object env report.tenant_id "report" report.evaluation_id
    pure { report with report_uri := some storage_uri }

def persist_evaluation_report (env : Env) (report : EvaluationReport) : Act Unit := do
  let archived ← archive_report_to_object_storage env report
  update (fun s => { s with evaluation_reports := s.evaluation_reports.put archived })

/-! ## The audit log -/

def append_audit_log (env : Env) (tenant_id action : String) (details : PyDict) : Act Unit := do
  let hex ← uuid4_hex12 env
  let occurred_at ← utcnow env
  update (fun s =>
    let prev_hash := (s.audit_logs.getLast?.map (fun log => log.audit_hash)).getD ""
    let log : AuditLog := ⟨"audit_" ++ hex, tenant_id, action, details, occurred_at, prev_hash, ""⟩
    { s with audit_logs :=
      s.audit_logs ++ [{ log with audit_hash := env.audit_hash log prev_hash }] })

/-! ## Retries -/

def retry_jitter_ms (env : Env) (job_id : String) (retry_count : Nat) : Nat :=
  env.retry_digest (job_id ++ ":" ++ toString retry_count) % 301

def retry_backoff_ms (env : Env) (job_id : String) (retry_count : Nat) : Nat :=
  let normalized_retry := max 1 retry_count
  let base := env.worker_retry_backoff_base_ms
  let max_backoff := max base env.worker_retry_backoff_max_ms
  let exponential := base * 2 ^ (normalized_retry - 1)
  min max_backoff exponential + retry_jitter_ms env job_id normalized_retry

end bid_evaluation.core
