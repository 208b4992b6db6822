-- The jobs of `InMemoryStore` and of `PostgresBackedStore`: the dictionary in
-- memory, and the `jobs` table of `repositories/jobs.py`. The calls are one
-- text of code. The stores differ in how they keep a job and how they read it.
import BidEvaluation.Lib.Lockstep
import BidEvaluation.RunJobOnce

open dict_lib stepwise lockstep bid_evaluation.values
open bid_evaluation.core (Env ErrorInfo Job JobPayload JobStatus JobType ALLOWED_TRANSITIONS
  retry_backoff_ms)
open bid_evaluation.store_admin (cancelled)
open bid_evaluation.store_parse (classify_error_code)
open bid_evaluation.job_run (RunFlags can_start default_error_code wordOr)

namespace bid_evaluation.job_rows

inductive Backend where
  | in_memory
  | postgres
deriving DecidableEq

/-! ## The table -/

/-- The columns of the table. -/
structure JobRow where
  job_id : String
  tenant_id : String
  job_type : JobType
  status : JobStatus
  retry_count : Nat
  thread_id : String
  trace_id : String
  resource_type : String
  resource_id : String
  payload : JobPayload
  last_error : Option ErrorInfo

structure State where
  jobs : Table Job.job_id
  rows : Table JobRow.job_id

def State.empty : State := ⟨Table.empty, Table.empty⟩

def row_of (tenant_id : String) (job : Job) : JobRow where
  job_id := job.job_id
  tenant_id := tenant_id
  job_type := job.job_type
  status := job.status
  retry_count := job.retry_count
  thread_id := job.thread_id
  trace_id := job.trace_id
  resource_type := job.resource_type
  resource_id := job.resource_id
  payload := job.payload
  last_error := job.last_error

/-- The dictionary that `get` makes of a row. It has no `errors`, `error_code`
or `next_retry_at`, and who reads them takes `[]` or `None`. -/
def JobRow.job (row : JobRow) : Job where
  job_id := row.job_id
  job_type := row.job_type
  status := row.status
  retry_count := row.retry_count
  thread_id := row.thread_id
  tenant_id := row.tenant_id
  trace_id := row.trace_id
  resource_type := row.resource_type
  resource_id := row.resource_id
  payload := row.payload
  last_error := row.last_error
  errors := []
  error_code := none
  next_retry_at := none

/-- `str(saved.get("tenant_id") or "tenant_default")`. -/
def row_tenant (job : Job) : String := if job.tenant_id = "" then "tenant_default" else job.tenant_id

/-- `PostgresJobsRepository.upsert`. -/
def upsert (s : State) (job : Job) : State :=
  { s with rows := s.rows.put (row_of (row_tenant job) job) }

/-- `PostgresJobsRepository.get`. -/
def get_row (s : State) (job_id tenant_id : String) : Option JobRow :=
  (s.rows.get? job_id).filter fun row => row.tenant_id = tenant_id

/-! ## Jobs -/

def put_job (s : State) (job : Job) : State := { s with jobs := s.jobs.put job }

/-- `_persist_job`. -/
def persist_job (b : Backend) (job : Job) : Prog State PyErr Job := do
  write fun s => put_job s job
  if b = .postgres then write fun s => upsert s job
  pure job

/-- `get_job_for_tenant` of `InMemoryStore`. -/
def get_in_memory (job_id tenant_id : String) : Prog State PyErr (Option Job) := do
  let s ← read
  match s.jobs.get? job_id with
  | none => pure none
  | some job =>
    if job.tenant_id ≠ tenant_id then
      raise (.api ⟨"TENANT_SCOPE_VIOLATION", "tenant mismatch", "security_sensitive", false, 403⟩)
    else pure (some job)

/-- The row that is found takes the place of the job in memory. -/
def get_loaded (job_id tenant_id : String) : Prog State PyErr (Option Job) := do
  let s ← read
  match get_row s job_id tenant_id with
  | some loaded => do
    write fun s => put_job s loaded.job
    pure (some loaded.job)
  | none => get_in_memory job_id tenant_id

def get_job_for_tenant : Backend → String → String → Prog State PyErr (Option Job)
  | .in_memory => get_in_memory
  | .postgres => get_loaded

/-- With no tenant the memory is read, on both stores. -/
def get_job (b : Backend) (job_id : String) : Option String → Prog State PyErr (Option Job)
  | none => do
    let s ← read
    pure (s.jobs.get? job_id)
  | some tenant_id => get_job_for_tenant b job_id tenant_id

def require_job (b : Backend) (job_id : String) (tenant_id : Option String) :
    Prog State PyErr Job := do
  match ← get_job b job_id tenant_id with
  | none => raise (.api ⟨"JOB_NOT_FOUND", "job not found", "validation", false, 404⟩)
  | some job => pure job

/-! ## Calls -/

def moved_to (job : Job) (new_status : JobStatus) : Job :=
  { job with
    retry_count := if new_status = .retrying then job.retry_count + 1 else job.retry_count
    status := new_status }

def transition_job_status (b : Backend) (job_id : String) (new_status : JobStatus)
    (tenant_id : Option String) : Prog State PyErr Job := do
  let job ← require_job b job_id tenant_id
  if new_status = job.status then pure job
  else if new_status ∉ ALLOWED_TRANSITIONS job.status then
    raise (.api ⟨"WF_STATE_TRANSITION_INVALID",
      "invalid transition: " ++ job.status.word ++ " -> " ++ new_status.word,
      "business_rule", false, 409⟩)
  else persist_job b (moved_to job new_status)

def cancelled_job (job : Job) : Job :=
  { job with
    status := .failed
    error_code := some "JOB_CANCELLED"
    last_error := some cancelled }

/-- The job is changed where it is in memory, and not persisted. -/
def cancel_job (b : Backend) (job_id tenant_id : String) : Prog State PyErr Job := do
  let job ← require_job b job_id (some tenant_id)
  if job.status = .succeeded ∨ job.status = .failed then
    raise (.api ⟨"JOB_CANCEL_CONFLICT", "job already in terminal state", "business_rule", false, 409⟩)
  else do
    write fun s => put_job s (cancelled_job job)
    pure (cancelled_job job)

/-- What each creation of a job chooses. -/
structure NewJob where
  job_id : String
  job_type : JobType
  thread_id : String
  tenant_id : String
  trace_id : String
  resource_type : String
  resource_id : String
  payload : JobPayload

def NewJob.job (new : NewJob) : Job where
  job_id := new.job_id
  job_type := new.job_type
  status := .queued
  retry_count := 0
  thread_id := new.thread_id
  tenant_id := new.tenant_id
  trace_id := new.trace_id
  resource_type := new.resource_type
  resource_id := new.resource_id
  payload := new.payload
  last_error := none
  errors := []
  error_code := none
  next_retry_at := none

/-! ## A run -/

/-- How the workflow of an evaluation or a resume ends, before it moves the
job. -/
inductive WorkflowEnd where
  | finished
  | interrupted
  | raised (e : PyErr)

/-- What a run gets from outside: a new thread id, the clock, and the end of
the workflow. -/
structure Given where
  thread_id : String
  retry_clock : Int
  error_clock : Int
  workflow : WorkflowEnd

def ensure_thread (b : Backend) (given : Given) (job : Job) : Prog State PyErr Job :=
  if job.thread_id = "" then persist_job b { job with thread_id := given.thread_id }
  else pure job

def move_to_running (b : Backend) (job : Job) (tenant_id : String) : Prog State PyErr Job :=
  if can_start job.status then transition_job_status b job.job_id .running (some tenant_id)
  else pure job

/-- The start of a run. The manifest and the checkpoints of a run are not
here: they are nothing to a job. -/
def begin_run (b : Backend) (given : Given) (job_id tenant_id : String) : Prog State PyErr Job := do
  let job ← require_job b job_id (some tenant_id)
  let job ← ensure_thread b given job
  let job ← move_to_running b job tenant_id
  if job.status = .running then pure job
  else
    raise (.api ⟨"WF_STATE_TRANSITION_INVALID", "job cannot run from status: " ++ job.status.word,
      "business_rule", false, 409⟩)

def with_error (job : Job) (retry_at : Option Int) (error_info : ErrorInfo) : Job :=
  { job with
    next_retry_at := retry_at
    last_error := some error_info
    errors := job.errors ++ [error_info] }

def retry_job (b : Backend) (env : Env) (given : Given) (job : Job) (tenant_id error_code : String) :
    Prog State PyErr Job := do
  let retried_job ← transition_job_status b job.job_id .retrying (some tenant_id)
  let retry_after_ms := retry_backoff_ms env job.job_id retried_job.retry_count
  let error_info : ErrorInfo :=
    ⟨error_code, (classify_error_code error_code).message, true, "transient", some given.error_clock⟩
  persist_job b (with_error retried_job (some (given.retry_clock + 1000 * retry_after_ms)) error_info)

def fail_job (b : Backend) (given : Given) (job : Job) (tenant_id : String)
    (force_error_code : Option String) : Prog State PyErr Job := do
  let error_code := wordOr force_error_code (default_error_code job)
  let error := classify_error_code error_code
  let _ ← transition_job_status b job.job_id .dlq_pending (some tenant_id)
  let _ ← transition_job_status b job.job_id .dlq_recorded (some tenant_id)
  let failed_job ← transition_job_status b job.job_id .failed (some tenant_id)
  let error_info : ErrorInfo :=
    ⟨error_code, error.message, error.retryable, error.error_class, some given.error_clock⟩
  persist_job b (with_error failed_job none error_info)

def succeed_job (b : Backend) (job : Job) (tenant_id : String) : Prog State PyErr Job := do
  let succeeded_job ← transition_job_status b job.job_id .succeeded (some tenant_id)
  persist_job b { succeeded_job with next_retry_at := none }

def run_evaluation_workflow (b : Backend) (given : Given) (job : Job) (tenant_id : String) :
    Prog State PyErr Job :=
  match given.workflow with
  | .finished => transition_job_status b job.job_id .succeeded (some tenant_id)
  | .interrupted => transition_job_status b job.job_id .needs_manual_decision (some tenant_id)
  | .raised e => raise e

/-- An interrupt here is an error of the caller. -/
def run_resume_workflow (b : Backend) (given : Given) (job : Job) (tenant_id : String) :
    Prog State PyErr Job :=
  match given.workflow with
  | .finished => transition_job_status b job.job_id .succeeded (some tenant_id)
  | .interrupted =>
    raise (.api ⟨"WF_INTERRUPT_RESUME_INVALID", "resume rejected by workflow", "business_rule",
      false, 409⟩)
  | .raised e => raise e

def run_by_type (b : Backend) (given : Given) (job : Job) (tenant_id : String) :
    Prog State PyErr Job :=
  match job.job_type with
  | .evaluation => run_evaluation_workflow b given job tenant_id
  | .resume => run_resume_workflow b given job tenant_id
  | _ => succeed_job b job tenant_id

def run_started (b : Backend) (env : Env) (given : Given) (job : Job) (tenant_id : String)
    (flags : RunFlags) : Prog State PyErr Job :=
  if flags.force_fail then fail_job b given job tenant_id flags.force_error_code
  else if flags.transient_fail then
    let error_code := wordOr flags.force_error_code "RAG_UPSTREAM_UNAVAILABLE"
    if job.retry_count < env.worker_max_retries then retry_job b env given job tenant_id error_code
    else fail_job b given job tenant_id (some error_code)
  else run_by_type b given job tenant_id

def run_job_once (b : Backend) (env : Env) (given : Given) (job_id tenant_id : String)
    (flags : RunFlags) : Prog State PyErr Job := do
  let job ← begin_run b given job_id tenant_id
  run_started b env given job tenant_id flags

/-! ## Sequences of calls -/

inductive Call where
  | create (new : NewJob)
  | get_job_for_tenant (job_id tenant_id : String)
  | run_job_once (job_id tenant_id : String) (flags : RunFlags) (given : Given)
  | transition_job_status (job_id : String) (new_status : JobStatus) (tenant_id : Option String)
  | cancel_job (job_id tenant_id : String)

/-- Drop what a call returns. -/
def quiet (m : Prog State PyErr α) : Prog State PyErr Unit := do
  let _ ← m
  pure ()

def Call.prog (b : Backend) (env : Env) : Call → Prog State PyErr Unit
  | .create new => quiet (persist_job b new.job)
  | .get_job_for_tenant job_id tenant_id => quiet (job_rows.get_job_for_tenant b job_id tenant_id)
  | .run_job_once job_id tenant_id flags given =>
    quiet (job_rows.run_job_once b env given job_id tenant_id flags)
  | .transition_job_status job_id new_status tenant_id =>
    quiet (job_rows.transition_job_status b job_id new_status tenant_id)
  | .cancel_job job_id tenant_id => quiet (job_rows.cancel_job b job_id tenant_id)

/-- What `get_job_for_tenant` tells about a job. -/
structure JobView where
  status : JobStatus
  retry_count : Nat
  last_error : Option ErrorInfo
  errors : List ErrorInfo
  next_retry_at : Option Int
  error_code : Option String
deriving DecidableEq

def view_of (job : Job) : JobView where
  status := job.status
  retry_count := job.retry_count
  last_error := job.last_error
  errors := job.errors
  next_retry_at := job.next_retry_at
  error_code := job.error_code

/-- What a read of each job by each tenant would return or raise. -/
def views (b : Backend) (s : State) (job_id tenant_id : String) : Except PyErr (Option JobView) :=
  ((get_job_for_tenant b job_id tenant_id).result s).map (Option.map view_of)

/-- A store that starts empty. After each call its jobs are read. -/
def machine (b : Backend) (env : Env) :
    Machine State Call (String → String → Except PyErr (Option JobView)) where
  start := State.empty
  step s call := ((call.prog b env).final s, views b ((call.prog b env).final s))

end bid_evaluation.job_rows
