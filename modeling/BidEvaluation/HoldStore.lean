-- Legal holds in `store_ops.py` and `store.py`, over the local object
-- storage: records of holds in the store, and the flags of the blobs in their
-- sidecars. An operation writes both, one after the other.
import BidEvaluation.ObjectStorage
import BidEvaluation.AuditLogs

open dict_lib file_tree stepwise lockstep bid_evaluation.values bid_evaluation.object_storage
open bid_evaluation.core (Env)

namespace bid_evaluation.hold_store

/-! ## The state -/

structure Hold where
  hold_id : String
  tenant_id : String
  object_type : String
  object_id : String
  reason : String
  imposed_by : String
  imposed_at : String
  released_by : Option String
  released_by_2 : Option String
  released_at : Option String
  release_reason : Option String
  status : String
  storage_uri : Option String
deriving DecidableEq

/-- The fields of a document that uploads and holds read. -/
structure StoredDocument where
  document_id : String
  tenant_id : String
  filename : String
  file_sha256 : String
  storage_uri : Option String

/-- A report. `fields` has its other entries. -/
structure StoredReport where
  evaluation_id : String
  tenant_id : String
  fields : PyDict
  report_uri : Option String

/-- The store and the files of its object storage. `evaluations` has the
tenant of each evaluation that was made, as its job does. -/
structure System (β : Type) where
  documents : Table StoredDocument.document_id
  evaluations : Dict String String
  evaluation_reports : Table StoredReport.evaluation_id
  legal_hold_objects : Table Hold.hold_id
  audit_logs : List PyDict
  files : FileTree β
  draws : Nat

variable {β : Type}

def System.empty : System β where
  documents := Table.empty
  evaluations := Dict.empty
  evaluation_reports := Table.empty
  legal_hold_objects := Table.empty
  audit_logs := []
  files := Dict.empty
  draws := 0

/-- `dump_report` writes a report as the bytes of a blob. -/
structure Settings (β : Type) where
  env : Env
  sha256 : String → String
  dump_report : PyDict → β
  storage : LocalObjectStorage β

abbrev HoldAct (β α : Type) := Prog (System β) PyErr α

variable {α : Type}

/-- A program of the object storage, on the files of the system. -/
def on_files (m : Act β α) : HoldAct β α := fun s =>
  ((m s.files).1.map fun t => { s with files := t }, (m s.files).2)

def update (f : System β → System β) : HoldAct β Unit := write f

def draw : HoldAct β Nat := do
  let s ← stepwise.read
  update fun s => { s with draws := s.draws + 1 }
  pure s.draws

def uuid4_hex12 (settings : Settings β) : HoldAct β String := do
  let n ← draw
  pure (settings.env.uuid4.hex12 n)

def moment (settings : Settings β) : HoldAct β Time := do
  let n ← draw
  pure (settings.env.clock n)

def utcnow_iso (settings : Settings β) : HoldAct β String := do
  let now ← moment settings
  pure (settings.storage.library.isoformat now)

def raise_api (code message error_class : String) (http_status : Nat) : HoldAct β α :=
  raise (.api ⟨code, message, error_class, false, http_status⟩)

def append_audit_log (settings : Settings β) (log : PyDict) : HoldAct β Unit := do
  let hex ← uuid4_hex12 settings
  let now ← utcnow_iso settings
  update fun s => { s with audit_logs :=
    audit_logs.append_audit_log settings.env settings.sha256 s.audit_logs hex now log }

/-! ## Objects -/

def tenant_mismatch : PyErr :=
  .api ⟨"TENANT_SCOPE_VIOLATION", "tenant mismatch", "security_sensitive", false, 403⟩

def get_document_for_tenant (s : System β) (document_id tenant_id : String) :
    Except PyErr (Option StoredDocument) :=
  match s.documents.get? document_id with
  | none => .ok none
  | some document =>
    if document.tenant_id ≠ tenant_id then .error tenant_mismatch else .ok (some document)

def get_evaluation_report_for_tenant (s : System β) (evaluation_id tenant_id : String) :
    Except PyErr (Option StoredReport) :=
  match s.evaluation_reports.get? evaluation_id with
  | none => .ok none
  | some report =>
    if report.tenant_id ≠ tenant_id then .error tenant_mismatch else .ok (some report)

/-- `uri` when it is a string that is not empty. -/
def usable (uri : Option String) : Option String := uri.filter fun text => text ≠ ""

def resolve_storage_uri (s : System β) (tenant_id object_type object_id : String) :
    Except PyErr (Option String) :=
  if object_type = "document" then
    (get_document_for_tenant s object_id tenant_id).map fun found =>
      usable (found.bind fun document => document.storage_uri)
  else if object_type = "report" then
    (get_evaluation_report_for_tenant s object_id tenant_id).map fun found =>
      usable (found.bind fun report => report.report_uri)
  else .ok none

def find_active_legal_hold (s : System β) (tenant_id object_type object_id : String) :
    Option Hold :=
  s.legal_hold_objects.values.find? fun hold => hold.tenant_id = tenant_id ∧
    hold.object_type = object_type ∧ hold.object_id = object_id ∧ hold.status = "active"

def put_hold (hold : Hold) : HoldAct β Unit :=
  update fun s => { s with legal_hold_objects := s.legal_hold_objects.put hold }

/-! ## Blobs -/

def apply_hold (settings : Settings β) (storage_uri : String) : HoldAct β Bool := do
  let now ← moment settings
  on_files (apply_legal_hold settings.storage now storage_uri)

/-- A hold that is active moves to the blob that was just written. -/
def move_hold (settings : Settings β) (storage_uri : String) : Option Hold → HoldAct β Unit
  | none => pure ()
  | some active_hold => do
    put_hold { active_hold with storage_uri := some storage_uri }
    let _ ← apply_hold settings storage_uri

/-- `put_object`, then the hold of the object. -/
def put_held_object (settings : Settings β) (args : PutArgs β) : HoldAct β String := do
  let now ← moment settings
  let storage_uri ← on_files (put_object settings.storage now args)
  let s ← stepwise.read
  move_hold settings storage_uri
    (find_active_legal_hold s args.tenant_id args.object_type args.object_id)
  pure storage_uri

/-! ## Uploads and reports -/

structure Upload (β : Type) where
  tenant_id : String
  filename : String
  file_sha256 : String
  file_bytes : Option β
  content_type : Option String

/-- The first document of the tenant with the same content. -/
def find_document_by_file_sha256 (s : System β) (tenant_id file_sha256 : String) :
    Option StoredDocument :=
  s.documents.values.find? fun d => d.tenant_id = tenant_id ∧ d.file_sha256 = file_sha256

def duplicate_of (s : System β) (upload : Upload β) : Option StoredDocument :=
  if upload.file_sha256 = "" then none
  else find_document_by_file_sha256 s upload.tenant_id upload.file_sha256

def or_default (text default : String) : String := if text = "" then default else text

def document_args (upload : Upload β) (document_id : String) (file_bytes : β) : PutArgs β where
  tenant_id := upload.tenant_id
  object_type := "document"
  object_id := document_id
  filename := or_default upload.filename "upload.bin"
  content_bytes := file_bytes
  content_type := some (or_default (upload.content_type.getD "") "application/octet-stream")

def put_upload (settings : Settings β) (upload : Upload β) (document_id : String) :
    HoldAct β (Option String) :=
  match upload.file_bytes with
  | none => pure none
  | some file_bytes => do
    let storage_uri ← put_held_object settings (document_args upload document_id file_bytes)
    pure (some storage_uri)

/-- Returns the id of the document. The parse job that is created next
touches no hold and no blob, and is left out. -/
def create_upload_job (settings : Settings β) (upload : Upload β) : HoldAct β String := do
  let s ← stepwise.read
  match duplicate_of s upload with
  | some existing => pure existing.document_id
  | none => do
    let hex ← uuid4_hex12 settings
    let storage_uri ← put_upload settings upload ("doc_" ++ hex)
    let document : StoredDocument :=
      ⟨"doc_" ++ hex, upload.tenant_id, upload.filename, upload.file_sha256, storage_uri⟩
    update fun s => { s with documents := s.documents.put document }
    pure ("doc_" ++ hex)

/-- The id that `create_evaluation_job` draws for a tenant. -/
def create_evaluation (settings : Settings β) (tenant_id : String) : HoldAct β String := do
  let hex ← uuid4_hex12 settings
  update fun s => { s with evaluations := s.evaluations.set ("ev_" ++ hex) tenant_id }
  pure ("ev_" ++ hex)

/-- The report as a dictionary, without its `report_uri`. -/
def report_payload (report : StoredReport) : PyDict :=
  [("evaluation_id", .str report.evaluation_id), ("tenant_id", .str report.tenant_id)] ++ report.fields

def build_report_filename (settings : Settings β) (payload : PyDict) : String :=
  let digest := settings.sha256 (routes.dumps settings.env (.dict payload))
  "report-" ++ String.ofList (digest.toList.take 12) ++ ".json"

def report_args (settings : Settings β) (report : StoredReport) : PutArgs β where
  tenant_id := report.tenant_id
  object_type := "report"
  object_id := report.evaluation_id
  filename := build_report_filename settings (report_payload report)
  content_bytes := settings.dump_report (report_payload report)
  content_type := some "application/json"

def archive_report_to_object_storage (settings : Settings β) (report : StoredReport) :
    HoldAct β StoredReport :=
  if report.evaluation_id = "" then pure report
  else do
    let storage_uri ← put_held_object settings (report_args settings report)
    pure { report with report_uri := some storage_uri }

def persist_evaluation_report (settings : Settings β) (report : StoredReport) : HoldAct β Unit := do
  let archived ← archive_report_to_object_storage settings report
  update fun s => { s with evaluation_reports := s.evaluation_reports.put archived }

/-- A run or a resume of an evaluation persists its report. -/
def archive_report (settings : Settings β) (evaluation_id : String) (fields : PyDict) :
    HoldAct β Unit := do
  let s ← stepwise.read
  match s.evaluations.get? evaluation_id with
  | none => pure ()
  | some tenant_id =>
    persist_evaluation_report settings
      ⟨evaluation_id, tenant_id, fields,
        (s.evaluation_reports.get? evaluation_id).bind fun report => report.report_uri⟩

/-! ## Holds -/

structure ImposeArgs where
  tenant_id : String
  object_type : String
  object_id : String
  reason : String
  imposed_by : String
  trace_id : String

/-- The flag of the blob, when the object has one. -/
def apply_stored (settings : Settings β) : Option String → HoldAct β Unit
  | none => pure ()
  | some storage_uri => do
    let _ ← apply_hold settings storage_uri

/-- The record keeps the stripped names. -/
def new_hold (args : ImposeArgs) (hex imposed_at : String) (storage_uri : Option String) :
    Hold where
  hold_id := "hold_" ++ hex
  tenant_id := args.tenant_id
  object_type := strip args.object_type
  object_id := strip args.object_id
  reason := strip args.reason
  imposed_by := strip args.imposed_by
  imposed_at := imposed_at
  released_by := none
  released_by_2 := none
  released_at := none
  release_reason := none
  status := "active"
  storage_uri := storage_uri

def impose_new (settings : Settings β) (args : ImposeArgs) : HoldAct β Hold := do
  let hex ← uuid4_hex12 settings
  let imposed_at ← utcnow_iso settings
  let s ← stepwise.read
  let storage_uri ← lift
    (resolve_storage_uri s args.tenant_id (strip args.object_type) (strip args.object_id))
  let hold := new_hold args hex imposed_at storage_uri
  apply_stored settings storage_uri
  put_hold hold
  append_audit_log settings [("tenant_id", .str args.tenant_id),
    ("action", .str "legal_hold_imposed"), ("hold_id", .str hold.hold_id),
    ("object_type", .str hold.object_type), ("object_id", .str hold.object_id),
    ("reason", .str hold.reason), ("imposed_by", .str hold.imposed_by),
    ("trace_id", .str args.trace_id)]
  pure hold

/-- The lookup takes the names as they come. -/
def impose_legal_hold (settings : Settings β) (args : ImposeArgs) : HoldAct β Hold := do
  if strip args.object_type = "" ∨ strip args.object_id = "" ∨ strip args.reason = "" ∨
      strip args.imposed_by = "" then
    raise_api "REQ_VALIDATION_FAILED" "invalid legal hold payload" "validation" 400
  else
    let s ← stepwise.read
    match find_active_legal_hold s args.tenant_id args.object_type args.object_id with
    | some existing => pure existing
    | none => impose_new settings args

structure ReleaseArgs where
  hold_id : String
  tenant_id : String
  reason : String
  reviewer_id : String
  reviewer_id_2 : String
  trace_id : String

/-- The hold that a release is about, when all checks pass. -/
def check_release (s : System β) (args : ReleaseArgs) : Except PyErr Hold :=
  match s.legal_hold_objects.get? args.hold_id with
  | none => .error (.api ⟨"LEGAL_HOLD_NOT_FOUND", "legal hold not found", "validation", false, 404⟩)
  | some hold =>
    if hold.tenant_id ≠ args.tenant_id then
      .error (.api ⟨"LEGAL_HOLD_NOT_FOUND", "legal hold not found", "validation", false, 404⟩)
    else if hold.status ≠ "active" then
      .error (.api ⟨"LEGAL_HOLD_RELEASE_CONFLICT", "legal hold already released", "business_rule",
        false, 409⟩)
    else if strip args.reason = "" ∨ strip args.reviewer_id = "" ∨ strip args.reviewer_id_2 = "" ∨
        strip args.reviewer_id = strip args.reviewer_id_2 then
      .error (.api ⟨"APPROVAL_REQUIRED", "legal hold release requires reason and dual reviewers",
        "business_rule", false, 400⟩)
    else .ok hold

/-- The blob of a hold: the one that the record names, or the current one. -/
def blob_of_hold (s : System β) (hold : Hold) : Except PyErr (Option String) :=
  match usable hold.storage_uri with
  | some storage_uri => .ok (some storage_uri)
  | none => resolve_storage_uri s hold.tenant_id hold.object_type hold.object_id

def release_stored (settings : Settings β) : Option String → HoldAct β Unit
  | none => pure ()
  | some storage_uri => do
    let now ← moment settings
    let _ ← on_files (object_storage.release_legal_hold settings.storage now storage_uri)

def released (hold : Hold) (args : ReleaseArgs) (released_at : String) : Hold :=
  { hold with
    status := "released"
    released_by := some (strip args.reviewer_id)
    released_by_2 := some (strip args.reviewer_id_2)
    released_at := some released_at
    release_reason := some (strip args.reason) }

/-- The record is marked as released before the blob is looked up. -/
def release_legal_hold (settings : Settings β) (args : ReleaseArgs) : HoldAct β Hold := do
  let s ← stepwise.read
  let hold ← lift (check_release s args)
  let released_at ← utcnow_iso settings
  let hold := released hold args released_at
  put_hold hold
  let s ← stepwise.read
  let storage_uri ← lift (blob_of_hold s hold)
  let hold := { hold with storage_uri := storage_uri.or hold.storage_uri }
  put_hold hold
  release_stored settings storage_uri
  append_audit_log settings [("tenant_id", .str args.tenant_id),
    ("action", .str "legal_hold_released"), ("hold_id", .str args.hold_id),
    ("object_type", .str hold.object_type), ("object_id", .str hold.object_id),
    ("reason", .str (strip args.reason)), ("reviewer_id", .str (strip args.reviewer_id)),
    ("reviewer_id_2", .str (strip args.reviewer_id_2)),
    ("approval_reviewers", .list [.str (strip args.reviewer_id), .str (strip args.reviewer_id_2)]),
    ("trace_id", .str args.trace_id)]
  pure hold

/-! ## Cleanup -/

structure CleanupArgs where
  tenant_id : String
  object_type : String
  object_id : String
  reason : String
  trace_id : String

def uri_value : Option String → PyVal
  | some storage_uri => .str storage_uri
  | none => .none

def cleanup_log (args : CleanupArgs) (action : String) (storage_uri : Option String)
    (details : PyDict) : PyDict :=
  [("tenant_id", .str args.tenant_id), ("action", .str action),
    ("object_type", .str args.object_type), ("object_id", .str args.object_id),
    ("storage_uri", uri_value storage_uri), ("reason", .str args.reason),
    ("trace_id", .str args.trace_id)] ++ details

def retention_value : Option Retention → PyVal
  | some retention => .dict [("mode", retention.mode), ("retain_until", retention.retain_until)]
  | none => .none

def block_cleanup (settings : Settings β) (args : CleanupArgs) (storage_uri : Option String)
    (blocked_by code message : String) (details : PyDict) : HoldAct β α := do
  let occurred_at ← utcnow_iso settings
  append_audit_log settings (cleanup_log args "storage_cleanup_blocked" storage_uri
    ([("blocked_by", .str blocked_by)] ++ details ++ [("occurred_at", .str occurred_at)]))
  raise_api code message "business_rule" 409

def retained (settings : Settings β) : Option String → HoldAct β Bool
  | none => pure false
  | some storage_uri => do
    let now ← moment settings
    on_files (is_retention_active settings.storage storage_uri now)

def retention_details (settings : Settings β) : Option String → HoldAct β PyDict
  | none => pure []
  | some storage_uri => do
    let retention ← on_files (get_retention settings.storage storage_uri)
    pure [("retention", retention_value retention)]

def delete_stored (settings : Settings β) : Option String → HoldAct β Bool
  | none => pure false
  | some storage_uri => do
    let now ← moment settings
    on_files (delete_object settings.storage now storage_uri)

def cleanup_free (settings : Settings β) (args : CleanupArgs) (storage_uri : Option String) :
    HoldAct β Bool := do
  if ← retained settings storage_uri then
    let details ← retention_details settings storage_uri
    block_cleanup settings args storage_uri "retention" "RETENTION_ACTIVE" "object is under retention"
      details
  else
    let deleted ← delete_stored settings storage_uri
    append_audit_log settings (cleanup_log args "storage_cleanup_executed" storage_uri [])
    pure deleted

def execute_storage_cleanup (settings : Settings β) (args : CleanupArgs) : HoldAct β Bool := do
  let s ← stepwise.read
  let storage_uri ← lift (resolve_storage_uri s args.tenant_id args.object_type args.object_id)
  match find_active_legal_hold s args.tenant_id args.object_type args.object_id with
  | some _ =>
    block_cleanup settings args storage_uri "legal_hold" "LEGAL_HOLD_ACTIVE"
      "object is under legal hold" []
  | none => cleanup_free settings args storage_uri

/-! ## Runs -/

inductive Op (β : Type) where
  | upload (file : Upload β)
  | create_evaluation (tenant_id : String)
  | archive_report (evaluation_id : String) (fields : PyDict)
  | impose (args : ImposeArgs)
  | release (args : ReleaseArgs)
  | cleanup (args : CleanupArgs)

/-- Drop what a program returns. -/
def quiet (m : HoldAct β α) : HoldAct β Unit := do
  let _ ← m
  pure ()

def Op.act (settings : Settings β) : Op β → HoldAct β Unit
  | .upload file => quiet (create_upload_job settings file)
  | .create_evaluation tenant_id => quiet (hold_store.create_evaluation settings tenant_id)
  | .archive_report evaluation_id fields =>
    hold_store.archive_report settings evaluation_id fields
  | .impose args => quiet (impose_legal_hold settings args)
  | .release args => quiet (release_legal_hold settings args)
  | .cleanup args => quiet (execute_storage_cleanup settings args)

/-- The settings of the storage that a restart can change. -/
structure Modes where
  worm_mode : Bool
  retention_days : Nat
  retention_mode : String

def Settings.under (settings : Settings β) (modes : Modes) : Settings β :=
  { settings with storage := { settings.storage with
    worm_mode := modes.worm_mode
    retention_days := modes.retention_days
    retention_mode := modes.retention_mode } }

/-- An operation, and the modes under which it is made. -/
structure Request (β : Type) where
  modes : Modes
  op : Op β

/-- The whole system as a machine, from the empty store. -/
def machine (settings : Settings β) : Machine (System β) (Request β) (Except PyErr Unit) where
  start := System.empty
  step s request :=
    ((request.op.act (settings.under request.modes)).final s,
      (request.op.act (settings.under request.modes)).result s)

end bid_evaluation.hold_store
