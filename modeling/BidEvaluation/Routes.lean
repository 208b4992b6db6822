-- The requests of a client: `run_idempotent` of `store_admin.py`, and the
-- routes of `documents.py` and `evaluations.py` that go through it.
import Mathlib.Data.List.Sort
import BidEvaluation.RunJobOnce
import BidEvaluation.Lib.Once
import BidEvaluation.Lib.JsonText

open dict_lib stepwise once_lib json_text bid_evaluation.values bid_evaluation.core
  bid_evaluation.store_ops bid_evaluation.store_workflow bid_evaluation.store_parse

namespace bid_evaluation.routes

/-! ## Fingerprints -/

def commaJoin : List String → String
  | [] => ""
  | [text] => text
  | text :: rest => text ++ "," ++ commaJoin rest

/-- `sort_keys` of `json.dumps`. -/
def sort_keys (members : List (String × String)) : List (String × String) :=
  members.insertionSort (fun a b => a.1 ≤ b.1)

def memberText (m : String × String) : String := stringText m.1 ++ ":" ++ m.2

mutual

/-- `json.dumps` with sorted keys, no blanks and ASCII only. -/
def dumps (env : Env) : PyVal → String
  | .none => "null"
  | .bool b => if b then "true" else "false"
  | .int n => toString n
  | .float x => env.repr (.float x)
  | .str s => stringText s
  | .list items => "[" ++ commaJoin (dumpsItems env items) ++ "]"
  | .dict entries =>
    "\x7b" ++ commaJoin ((sort_keys (dumpsMembers env entries)).map memberText) ++ "\x7d"

def dumpsItems (env : Env) : List PyVal → List String
  | [] => []
  | item :: rest => dumps env item :: dumpsItems env rest

def dumpsMembers (env : Env) : List (String × PyVal) → List (String × String)
  | [] => []
  | (key, value) :: rest => (key, dumps env value) :: dumpsMembers env rest

end

def fingerprint (env : Env) (payload : PyDict) : String := dumps env (.dict payload)

/-! ## `run_idempotent` -/

def idempotency_conflict : PyErr :=
  .api ⟨"IDEMPOTENCY_CONFLICT", "same key with different payload", "validation", false, 409⟩

def idempotency_scope (tenant_id endpoint : String) : String := tenant_id ++ ":" ++ endpoint

/-- The records are those of the store in memory. -/
def run_idempotent {σ : Type} (env : Env) (endpoint tenant_id idempotency_key : String)
    (payload : PyDict) (execute : Prog σ PyErr PyDict) :
    Prog (Ledger (String × String) String PyDict σ) PyErr PyDict :=
  once idempotency_conflict (idempotency_scope tenant_id endpoint, idempotency_key)
    (fingerprint env payload) execute

/-! ## Requests -/

/-- The store with its idempotency records. -/
abbrev Api : Type := Ledger (String × String) String PyDict World

abbrev Serve : Type := Prog Api PyErr PyDict

/-- Who sends a request. -/
structure Client where
  tenant_id : String
  idempotency_key : Option String

/-- The header `x-trace-id` of one request, and what `uuid.uuid4().hex`
gives when the middleware asks for it. -/
structure Trace where
  x_trace_id : Option String
  uuid4_hex : String

/-- The trace id that the middleware gives to a request. -/
def add_trace_id (trace_id_strict_required : Bool) (trace : Trace) : Except PyErr String :=
  let incoming_trace_id := strip (trace.x_trace_id.getD "")
  if incoming_trace_id ≠ "" then .ok incoming_trace_id
  else if trace_id_strict_required then
    .error (.api ⟨"TRACE_ID_REQUIRED", "x-trace-id header is required", "validation", false, 400⟩)
  else .ok trace.uuid4_hex

def require_idempotency_key (client : Client) : Except PyErr String :=
  match client.idempotency_key with
  | some key => if key = "" then missing_key else .ok key
  | none => missing_key
where
  missing_key : Except PyErr String :=
    .error (.api ⟨"IDEMPOTENCY_MISSING", "Idempotency-Key header is required", "validation", false,
      400⟩)

/-! ## Documents -/

/-- The form fields and the file of an upload. -/
structure UploadForm where
  project_id : String
  supplier_id : String
  doc_type : String
  filename : String
  file_sha256 : String
  file_size : Nat

def upload_payload (form : UploadForm) (trace_id tenant_id : String) : UploadPayload where
  tenant_id := tenant_id
  trace_id := trace_id
  project_id := form.project_id
  supplier_id := form.supplier_id
  doc_type := form.doc_type
  filename := if form.filename = "" then "upload.bin" else form.filename
  file_sha256 := form.file_sha256
  file_size := form.file_size

def upload_dict (payload : UploadPayload) : PyDict :=
  [("project_id", .str payload.project_id), ("supplier_id", .str payload.supplier_id),
    ("doc_type", .str payload.doc_type), ("filename", .str payload.filename),
    ("file_sha256", .str payload.file_sha256), ("file_size", .int payload.file_size),
    ("trace_id", .str payload.trace_id), ("tenant_id", .str payload.tenant_id)]

def word_or_none (word : Option String) : PyVal :=
  match word with
  | none => .none
  | some w => .str w

/-- What `create_upload_job` returns, as a dictionary. -/
def upload_data (env : Env) (payload : UploadPayload) : Act PyDict := do
  let w ← read
  let (document_id, job_id) ← create_upload_job env payload true
  match duplicate_of w.store payload with
  | some existing =>
    pure [("document_id", .str document_id), ("job_id", word_or_none job_id),
      ("status", .str "duplicate"), ("existing_status", .str existing.status),
      ("next", .str ("/api/v1/documents/" ++ document_id))]
  | none =>
    pure [("document_id", .str document_id), ("job_id", word_or_none job_id),
      ("status", .str "queued"), ("next", .str ("/api/v1/jobs/" ++ job_id.getD ""))]

/-- The trace id goes into the payload, and so into the fingerprint. -/
def upload_document (env : Env) (trace_id_strict_required : Bool) (client : Client)
    (form : UploadForm) (trace : Trace) : Serve := do
  let trace_id ← lift (add_trace_id trace_id_strict_required trace)
  let idempotency_key ← lift (require_idempotency_key client)
  let payload := upload_payload form trace_id client.tenant_id
  run_idempotent env "POST:/api/v1/documents/upload" client.tenant_id idempotency_key
    (upload_dict payload) (upload_data env payload)

def parse_dict (document_id trace_id tenant_id : String) : PyDict :=
  [("document_id", .str document_id), ("trace_id", .str trace_id), ("tenant_id", .str tenant_id)]

/-- What `create_parse_job` returns, as a dictionary. -/
def parse_data (env : Env) (document_id trace_id tenant_id : String) : Act PyDict := do
  let job_id ← create_parse_job env document_id trace_id tenant_id
  pure [("document_id", .str document_id), ("job_id", .str job_id), ("status", .str "queued")]

def parse_document (env : Env) (trace_id_strict_required : Bool) (client : Client)
    (document_id : String) (trace : Trace) : Serve := do
  let trace_id ← lift (add_trace_id trace_id_strict_required trace)
  let idempotency_key ← lift (require_idempotency_key client)
  run_idempotent env ("POST:/api/v1/documents/" ++ document_id ++ "/parse") client.tenant_id
    idempotency_key (parse_dict document_id trace_id client.tenant_id)
    (parse_data env document_id trace_id client.tenant_id)

/-! ## Resume -/

structure ResumeRequest where
  resume_token : String
  decision : String
  comment : String
  reviewer_id : String
  edited_scores : List PyDict

def resume_dict (request : ResumeRequest) : PyDict :=
  [("resume_token", .str request.resume_token), ("decision", .str request.decision),
    ("comment", .str request.comment),
    ("editor", .dict [("reviewer_id", .str request.reviewer_id)]),
    ("edited_scores", .list (request.edited_scores.map .dict))]

def resume_payload (request : ResumeRequest) (trace_id tenant_id : String) : ResumePayload where
  tenant_id := tenant_id
  trace_id := trace_id
  decision := request.decision
  comment := request.comment
  reviewer_id := request.reviewer_id
  edited_scores := request.edited_scores

/-- `_execute_resume`, with the dictionary that `create_resume_job`
returns. -/
def resume_data (env : Env) (evaluation_id : String) (request : ResumeRequest)
    (trace_id tenant_id : String) : Act PyDict := do
  let job_id ← execute_resume env evaluation_id request.resume_token
    (resume_payload request trace_id tenant_id)
  pure [("evaluation_id", .str evaluation_id), ("job_id", .str job_id), ("status", .str "queued")]

def require_reviewer (request : ResumeRequest) : Except PyErr Unit :=
  if strip request.reviewer_id = "" then
    .error (.api ⟨"WF_INTERRUPT_REVIEWER_REQUIRED", "reviewer_id is required for resume",
      "business_rule", false, 400⟩)
  else .ok ()

def resume_endpoint (evaluation_id : String) : String :=
  "POST:/api/v1/evaluations/" ++ evaluation_id ++ "/resume"

def resume_evaluation (env : Env) (trace_id_strict_required : Bool) (client : Client)
    (evaluation_id : String) (request : ResumeRequest) (trace : Trace) : Serve := do
  let trace_id ← lift (add_trace_id trace_id_strict_required trace)
  let idempotency_key ← lift (require_idempotency_key client)
  lift (require_reviewer request)
  run_idempotent env (resume_endpoint evaluation_id) client.tenant_id idempotency_key
    (resume_dict request) (resume_data env evaluation_id request trace_id client.tenant_id)

end bid_evaluation.routes
