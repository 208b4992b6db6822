-- `store_admin.py`: how a job is read, moved and cancelled, and how a
-- document is read. `RunJobOnce` has the run of a job.
import BidEvaluation.StoreWorkflow

open dict_lib stepwise bid_evaluation.values bid_evaluation.core

namespace bid_evaluation.store_admin

/-! ## Jobs -/

def job_not_found : Act α :=
  raise_api "JOB_NOT_FOUND" "job not found" "validation" false 404

/-- The job, or the error that it is not there. With no tenant the scope
is not checked. -/
def require_job (job_id : String) (tenant_id : Option String) : Act Job := do
  let w ← read
  match w.store.jobs.get? job_id with
  | none => job_not_found
  | some job =>
    match tenant_id with
    | none => pure job
    | some tenant_id => do
      assert_tenant_scope job.tenant_id tenant_id
      pure job

def transition_job_status (env : Env) (job_id : String) (new_status : JobStatus)
    (tenant_id : Option String) : Act Job :=
  saving env do
    let job ← require_job job_id tenant_id
    if new_status = job.status then pure job
    else if new_status ∉ ALLOWED_TRANSITIONS job.status then
      raise_api "WF_STATE_TRANSITION_INVALID"
        ("invalid transition: " ++ job.status.word ++ " -> " ++ new_status.word)
        "business_rule" false 409
    else
      persist_job { job with
        retry_count := if new_status = .retrying then job.retry_count + 1 else job.retry_count
        status := new_status }

def cancelled : ErrorInfo :=
  ⟨"JOB_CANCELLED", "job cancelled by operator", false, "business_rule", none⟩

def cancel_job (env : Env) (job_id tenant_id : String) : Act Unit :=
  saving env do
    let job ← require_job job_id (some tenant_id)
    if job.status = .succeeded ∨ job.status = .failed then
      raise_api "JOB_CANCEL_CONFLICT" "job already in terminal state" "business_rule" false 409
    else
      update (fun s => { s with jobs := s.jobs.put { job with
        status := .failed
        error_code := some "JOB_CANCELLED"
        last_error := some cancelled } })

/-- What a run of a job returns. The keys that a branch leaves out are
`none`. -/
structure RunResult where
  job_id : String
  final_status : JobStatus
  thread_id : Option String
  evaluation_id : Option String
  retry_count : Option Nat
  dlq_id : Option String
  retry_after_ms : Option Nat
  retry_at : Option Int
deriving DecidableEq

/-! ## Documents -/

def get_document_for_tenant (document_id tenant_id : String) : Act (Option Document) := do
  let w ← read
  match w.store.documents.get? document_id with
  | none => pure none
  | some document => do
    assert_tenant_scope document.tenant_id tenant_id
    pure (some document)

def list_document_chunks_for_tenant (document_id tenant_id : String) : Act (List PyDict) := do
  let document ← get_document_for_tenant document_id tenant_id
  match document with
  | none => raise_api "DOC_NOT_FOUND" "document not found" "validation" false 404
  | some _ => do
    let w ← read
    pure ((w.store.document_chunks.get? document_id).getD [])

/-- The manifest of a job. One of another tenant is not found. -/
def get_parse_manifest_for_tenant (s : Store) (job_id tenant_id : String) :
    Option ParseManifest :=
  (s.parse_manifests.get? job_id).filter (fun manifest => manifest.tenant_id = tenant_id)

def get_rule_pack_for_tenant (s : Store) (rule_pack_version tenant_id : String) :
    Option RulePack :=
  (s.rule_packs.get? rule_pack_version).filter (fun pack => pack.tenant_id = tenant_id)

end bid_evaluation.store_admin
