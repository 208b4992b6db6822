-- `run_job_once` of `store_admin.py`, one definition for each branch, and
-- the operations that create parse jobs.
import BidEvaluation.StoreEval
import BidEvaluation.StoreParse

open dict_lib stepwise bid_evaluation.values bid_evaluation.core bid_evaluation.store_ops
  bid_evaluation.store_workflow bid_evaluation.store_admin bid_evaluation.store_retrieval
  bid_evaluation.store_parse bid_evaluation.store_eval

namespace bid_evaluation.job_run

/-! ## The start of a run -/

structure RunFlags where
  force_fail : Bool
  transient_fail : Bool
  force_error_code : Option String

def RunFlags.default : RunFlags := ⟨false, false, none⟩

/-- `a or b` for an optional word. -/
def wordOr (word : Option String) (default : String) : String :=
  match word with
  | none => default
  | some w => if w = "" then default else w

def ensure_thread (env : Env) (job : Job) : Act Job :=
  if job.thread_id = "" then do
    let thread_id ← new_thread_id env "job"
    persist_job { job with thread_id := thread_id }
  else pure job

def can_start (status : JobStatus) : Bool :=
  status = .queued || status = .retrying || status = .needs_manual_decision

def move_to_running (env : Env) (job : Job) (tenant_id : String) : Act Job :=
  if can_start job.status then do
    let running ← transition_job_status env job.job_id .running (some tenant_id)
    append_workflow_checkpoint env job.thread_id job.job_id tenant_id "job_started" "running"
      [("job_type", .str running.job_type.word)]
    pure running
  else pure job

/-- Change the manifest of a job, if it has one, and store it. -/
def change_manifest (job_id tenant_id : String)
    (change : ParseManifest → Act ParseManifest) : Act Unit := do
  let w ← read
  match get_parse_manifest_for_tenant w.store job_id tenant_id with
  | none => pure ()
  | some manifest => do
    let manifest ← change manifest
    persist_parse_manifest manifest

/-- The first start of a manifest stays. -/
def first_start (env : Env) (manifest : ParseManifest) : Act Int :=
  match manifest.started_at with
  | some started_at => pure started_at
  | none => utcnow env

def started_manifest (env : Env) (manifest : ParseManifest) : Act ParseManifest := do
  let started_at ← first_start env manifest
  pure { manifest with started_at := some started_at, status := "running", error_code := none }

def count_parse_run (s : Store) : Store :=
  let m := s.parser_retrieval_metrics
  { s with parser_retrieval_metrics := { m with parse_runs_total := m.parse_runs_total + 1 } }

/-- The manifest and the counter move before the status is checked. -/
def start_parse (env : Env) (job : Job) (tenant_id : String) : Act Unit :=
  if job.job_type = .parse then do
    change_manifest job.job_id tenant_id (started_manifest env)
    update count_parse_run
  else pure ()

def require_running (job : Job) : Act Unit :=
  if job.status = .running then pure ()
  else
    raise_api "WF_STATE_TRANSITION_INVALID" ("job cannot run from status: " ++ job.status.word)
      "business_rule" false 409

/-- All that a run does before it looks at its flags. -/
def begin_run (env : Env) (job_id tenant_id : String) : Act Job := do
  let job ← require_job job_id (some tenant_id)
  let job ← ensure_thread env job
  let job ← move_to_running env job tenant_id
  start_parse env job tenant_id
  require_running job
  pure job

/-! ## The retry -/

/-- Only a parse job has a manifest to change. -/
def change_parse_manifest (job : Job) (tenant_id : String)
    (change : ParseManifest → Act ParseManifest) : Act Unit :=
  if job.job_type = .parse then change_manifest job.job_id tenant_id change else pure ()

def retry_manifest (error_code : String) (manifest : ParseManifest) : Act ParseManifest :=
  pure { manifest with status := "retrying", error_code := some error_code }

def retry_job (env : Env) (job : Job) (tenant_id error_code : String) : Act RunResult := do
  let retried_job ← transition_job_status env job.job_id .retrying (some tenant_id)
  let retry_after_ms := retry_backoff_ms env job.job_id retried_job.retry_count
  let now ← utcnow env
  let retry_at := now + 1000 * retry_after_ms
  let occurred_at ← utcnow env
  let error_info : ErrorInfo :=
    ⟨error_code, (classify_error_code error_code).message, true, "transient", some occurred_at⟩
  let retried_job ← persist_job { retried_job with
    next_retry_at := some retry_at
    last_error := some error_info
    errors := retried_job.errors ++ [error_info] }
  change_parse_manifest job tenant_id (retry_manifest error_code)
  append_workflow_checkpoint env job.thread_id job.job_id tenant_id "job_retrying" "retrying"
    [("retry_count", .int retried_job.retry_count), ("error_code", .str error_code),
      ("retry_after_ms", .int retry_after_ms), ("retry_at", .int retry_at)]
  pure ⟨job.job_id, .retrying, none, none, some retried_job.retry_count, none,
    some retry_after_ms, some retry_at⟩

/-! ## The failure -/

def failed_manifest (env : Env) (error_code : String) (manifest : ParseManifest) :
    Act ParseManifest := do
  let ended_at ← utcnow env
  pure { manifest with
    status := "failed"
    error_code := some error_code
    ended_at := some ended_at }

/-- Set the status of the document of a parse job, if it is there. -/
def mark_document (job : Job) (tenant_id status : String) : Act (Option Document) := do
  let document ← get_document_for_tenant job.resource_id tenant_id
  match document with
  | none => pure none
  | some document => do
    persist_document { document with status := status }
    pure (some { document with status := status })

def default_error_code (job : Job) : String :=
  if job.job_type = .parse then "DOC_PARSE_OUTPUT_NOT_FOUND" else "INTERNAL_DEBUG_FORCED_FAIL"

/-- The job goes through both dead letter statuses to `failed`. The item is
seeded after the move to `dlq_recorded`. -/
def dead_letter (env : Env) (job : Job) (tenant_id error_code : String) :
    Act (DlqItem × Job) := do
  let error := classify_error_code error_code
  let _ ← transition_job_status env job.job_id .dlq_pending (some tenant_id)
  let _ ← transition_job_status env job.job_id .dlq_recorded (some tenant_id)
  let dlq_item ← seed_dlq_item env job.job_id error.error_class error_code tenant_id
  let failed_job ← transition_job_status env job.job_id .failed (some tenant_id)
  let occurred_at ← utcnow env
  let error_info : ErrorInfo :=
    ⟨error_code, error.message, error.retryable, error.error_class, some occurred_at⟩
  let failed_job ← persist_job { failed_job with
    next_retry_at := none
    last_error := some error_info
    errors := failed_job.errors ++ [error_info] }
  pure (dlq_item, failed_job)

def fail_parse (env : Env) (job : Job) (tenant_id error_code : String) : Act Unit :=
  if job.job_type = .parse then do
    change_manifest job.job_id tenant_id (failed_manifest env error_code)
    let _ ← mark_document job tenant_id "parse_failed"
  else pure ()

def fail_job (env : Env) (job : Job) (tenant_id : String) (force_error_code : Option String) :
    Act RunResult := do
  let error_code := wordOr force_error_code (default_error_code job)
  let (dlq_item, failed_job) ← dead_letter env job tenant_id error_code
  fail_parse env job tenant_id error_code
  append_workflow_checkpoint env job.thread_id job.job_id tenant_id "job_failed" "failed"
    [("error_code", .str error_code), ("retry_count", .int failed_job.retry_count)]
  pure ⟨job.job_id, .failed, none, none, some failed_job.retry_count, some dlq_item.dlq_id,
    none, none⟩

/-! ## The success -/

/-- The last checkpoint of an evaluation job says how it ended. -/
def evaluation_checkpoint (env : Env) (job : Job) (tenant_id : String) (result : RunResult) :
    Act Unit :=
  let thread_id := result.thread_id.getD job.thread_id
  if result.final_status = .succeeded then
    append_workflow_checkpoint env thread_id job.job_id tenant_id "job_succeeded" "succeeded"
      [("job_type", .str "evaluation")]
  else if result.final_status = .needs_manual_decision then
    append_workflow_checkpoint env thread_id job.job_id tenant_id "job_needs_manual_decision"
      "needs_manual_decision" [("job_type", .str "evaluation")]
  else pure ()

def run_evaluation_job (env : Env) (job : Job) (tenant_id : String) : Act RunResult := do
  let result ← run_evaluation_workflow env job tenant_id
  evaluation_checkpoint env job tenant_id result
  pure result

def run_resume_job (env : Env) (job : Job) (tenant_id : String) : Act RunResult := do
  let result ← run_resume_workflow env job tenant_id
  append_workflow_checkpoint env (result.thread_id.getD job.thread_id) job.job_id tenant_id
    "job_succeeded" "succeeded" [("job_type", .str "resume")]
  pure result

def succeeded_manifest (env : Env) (manifest : ParseManifest) : Act ParseManifest := do
  let ended_at ← utcnow env
  pure { manifest with status := "succeeded", error_code := none, ended_at := some ended_at }

def source_of_chunk (document : Document) (tenant_id : String) (chunk : PyDict) (page : Int)
    (bbox : PyVal) (chunk_id : String) : CitationSource where
  chunk_id := chunk_id
  document_id := document.document_id
  tenant_id := tenant_id
  project_id := document.project_id
  supplier_id := document.supplier_id
  doc_type := document.doc_type
  page := .int page
  bbox := bbox
  heading_path := chunk.getD "heading_path" (.list [])
  chunk_type := chunk.getD "chunk_type" (.str "text")
  content_source := chunk.getD "content_source" (.str "unknown")
  text := chunk.getD "text" (.str "")
  context := chunk.getD "section" (.str "")
  score_raw := 78 / 100
  chunk_hash := chunk.get "chunk_hash"

def register_chunks (env : Env) (document : Document) (tenant_id : String)
    (chunks : List PyDict) : Act Unit :=
  chunks.foldlM (fun _ chunk => do
    let (page, bbox) ← lift (extract_page_and_bbox env chunk)
    let chunk_id := (chunk.get "chunk_id").toStr env.repr
    register_citation_source env chunk_id
      (source_of_chunk document tenant_id chunk page bbox chunk_id)) ()

/-- The manifest with what the chunks say, and how many were stored. -/
def count_chunks (manifest : ParseManifest) (parsed persisted : List PyDict) : ParseManifest :=
  { manifest with
    content_source := match parsed with
      | [] => manifest.content_source
      | chunk :: _ => some (chunk.getD "content_source" (.str "unknown"))
    chunk_count := some persisted.length }

def persist_counted (manifest : Option ParseManifest) (parsed persisted : List PyDict) :
    Act Unit :=
  match manifest with
  | none => pure ()
  | some manifest => persist_parse_manifest (count_chunks manifest parsed persisted)

/-- Parse, store, register and index the chunks of a document. The document
is already marked `indexed`. -/
def index_document (env : Env) (document : Document) (tenant_id : String)
    (manifest : Option ParseManifest) : Act Unit := do
  let parsed ← parse_document_file env document tenant_id manifest
  let persisted ← persist_document_chunks env tenant_id document.document_id parsed
  persist_counted manifest parsed persisted
  register_chunks env document tenant_id persisted
  maybe_index_chunks_to_lightrag env tenant_id document.project_id document.document_id persisted

/-- The last status of the manifest, and of the document if it is there. -/
def mark_parsed (env : Env) (job : Job) (tenant_id : String) :
    Act (Option Document × Option ParseManifest) := do
  change_manifest job.job_id tenant_id (succeeded_manifest env)
  let w ← read
  let manifest := get_parse_manifest_for_tenant w.store job.job_id tenant_id
  let document ← mark_document job tenant_id "indexed"
  pure (document, manifest)

/-- What a parse job does after it has moved to `succeeded`. -/
def index_parsed (env : Env) (job : Job) (tenant_id : String) : Act Unit := do
  let (document, manifest) ← mark_parsed env job tenant_id
  match document with
  | none => pure ()
  | some document => do
    let existing ← list_document_chunks_for_tenant document.document_id tenant_id
    if existing = [] then index_document env document tenant_id manifest else pure ()

def succeed_parse (env : Env) (job : Job) (tenant_id : String) : Act Unit :=
  if job.job_type = .parse then index_parsed env job tenant_id else pure ()

def move_to_succeeded (env : Env) (job : Job) (tenant_id : String) : Act Job := do
  let succeeded_job ← transition_job_status env job.job_id .succeeded (some tenant_id)
  persist_job { succeeded_job with next_retry_at := none }

def succeed_job (env : Env) (job : Job) (tenant_id : String) : Act RunResult := do
  let succeeded_job ← move_to_succeeded env job tenant_id
  succeed_parse env job tenant_id
  append_workflow_checkpoint env job.thread_id job.job_id tenant_id "job_succeeded" "succeeded"
    [("retry_count", .int job.retry_count)]
  pure ⟨job.job_id, .succeeded, none, none, some succeeded_job.retry_count, none, none, none⟩

/-! ## The run -/

/-- A job that runs and does not fail on purpose. -/
def run_by_type (env : Env) (job : Job) (tenant_id : String) : Act RunResult :=
  match job.job_type with
  | .evaluation => run_evaluation_job env job tenant_id
  | .resume => run_resume_job env job tenant_id
  | _ => succeed_job env job tenant_id

def run_started (env : Env) (job : Job) (tenant_id : String) (flags : RunFlags) :
    Act RunResult :=
  if flags.force_fail then fail_job env job tenant_id flags.force_error_code
  else if flags.transient_fail then
    let error_code := wordOr flags.force_error_code "RAG_UPSTREAM_UNAVAILABLE"
    if job.retry_count < env.worker_max_retries then retry_job env job tenant_id error_code
    else fail_job env job tenant_id (some error_code)
  else run_by_type env job tenant_id

def run_job_once (env : Env) (job_id tenant_id : String) (flags : RunFlags) : Act RunResult :=
  saving env do
    let job ← begin_run env job_id tenant_id
    run_started env job tenant_id flags

end bid_evaluation.job_run
