-- `store_parse.py` and `create_upload_job`: how a document becomes chunks.
-- The MinerU service, the local parser and the adapters of the registry
-- are tried one after the other.
import BidEvaluation.StoreRetrieval

open dict_lib stepwise bid_evaluation.values bid_evaluation.core bid_evaluation.store_ops
  bid_evaluation.store_admin bid_evaluation.store_retrieval

namespace bid_evaluation.store_parse

/-! ## Errors of a failed job -/

structure ErrorClass where
  error_class : String
  retryable : Bool
  message : String

def classify_error_code : String → ErrorClass
  | "DOC_PARSE_OUTPUT_NOT_FOUND" => ⟨"permanent", false, "parse output missing"⟩
  | "DOC_PARSE_SCHEMA_INVALID" => ⟨"transient", true, "parse schema invalid"⟩
  | "MINERU_BBOX_FORMAT_INVALID" => ⟨"permanent", false, "bbox format invalid"⟩
  | "TEXT_ENCODING_UNSUPPORTED" => ⟨"permanent", false, "text encoding unsupported"⟩
  | "PARSER_FALLBACK_EXHAUSTED" => ⟨"transient", true, "parser fallback exhausted"⟩
  | "RAG_UPSTREAM_UNAVAILABLE" => ⟨"transient", true, "retrieval upstream unavailable"⟩
  | _ => ⟨"transient", true, "forced failure by internal debug run"⟩

/-! ## The shape of a chunk -/

def unit_bbox : PyVal := .list [.float 0, .float 0, .float 1, .float 1]

/-- `[float(x) for x in bbox]`, or the unit box if one of them raises. -/
def float_bbox (env : Env) (bbox : List PyVal) : PyVal :=
  match bbox.mapM (PyVal.toFloat env.float_of_str) with
  | .ok xs => .list (xs.map .float)
  | .error _ => unit_bbox

/-- The page and the box that a dictionary names. There is no box unless
it is a list of four. -/
def page_and_bbox (env : Env) (d : PyDict) : Except PyErr (Int × Option PyVal) := do
  let page ← ((d.get "page").or (.int 1)).toInt
  match d.get "bbox" with
  | .list bbox => pure (page, if bbox.length = 4 then some (float_bbox env bbox) else none)
  | _ => pure (page, none)

/-- The first position, if there is one. -/
def first_position (chunk : PyDict) : Option PyDict :=
  match chunk.getD "positions" (.list []) with
  | .list (.dict first :: _) => some first
  | .list (_ :: _) => some []
  | _ => none

def extract_page_and_bbox (env : Env) (chunk : PyDict) : Except PyErr (Int × PyVal) := do
  let own ← match first_position chunk with
    | none => pure none
    | some first => do
      let (page, bbox) ← page_and_bbox env first
      pure (bbox.map (fun b => (page, b)))
  match own with
  | some found => pure found
  | none => do
    let (page, bbox) ← page_and_bbox env chunk
    pure (page, bbox.getD unit_bbox)

/-- The list under a key, or none if the value is no list. -/
def get_list (d : PyDict) (key : String) : Option (List PyVal) :=
  match d.get key with
  | .list xs => some xs
  | _ => none

/-- Set the key unless it has a list that is not empty. -/
def set_unless_list (d : PyDict) (key : String) (value : PyVal) : PyDict :=
  match get_list d key with
  | some (_ :: _) => d
  | _ => d.set key value

/-- Set the key to an empty list unless it has a list. -/
def set_unless_any_list (d : PyDict) (key : String) : PyDict :=
  match get_list d key with
  | some _ => d
  | none => d.set key (.list [])

def set_unless_truthy (d : PyDict) (key : String) (value : PyVal) : PyDict :=
  if (d.get key).truthy then d else d.set key value

def ensure_chunk_shape (env : Env) (document_id : String) (chunk : PyDict) :
    Except PyErr PyDict := do
  let (page, bbox) ← extract_page_and_bbox env chunk
  let text := ((chunk.get "text").or (.str "")).toStr env.repr
  let heading_path := (get_list chunk "heading_path").getD []
  let chunk_hash := env.chunk_hash document_id page heading_path bbox text
  let item := (((chunk.set "document_id" (.str document_id)).set "page" (.int page)).set
    "bbox" bbox).set "chunk_hash" (.str chunk_hash)
  let item := set_unless_truthy item "chunk_id" (.str ("ck_" ++ (chunk_hash.take 12).toString))
  let item := set_unless_list item "positions" (.list [.dict [("page", .int page), ("bbox", bbox),
    ("start", .int 0), ("end", .int (max 1 text.length))]])
  let item := set_unless_list item "pages" (.list [.int page])
  let item := set_unless_any_list item "heading_path"
  let item := item.setdefault "chunk_type" (.str "text")
  let item := item.setdefault "parser" (.str "mineru")
  let item := item.setdefault "parser_version" (.str "v0")
  let item := item.setdefault "section" (.str "")
  let item := item.setdefault "content_source" (.str "unknown")
  pure (item.setdefault "text" (.str text))

/-- Keep the first chunk of each hash. -/
def dedupe_chunks (env : Env) (document_id : String) :
    List String → List PyDict → Except PyErr (List PyDict)
  | _, [] => pure []
  | seen, chunk :: rest => do
    let normalized ← ensure_chunk_shape env document_id chunk
    let key := (normalized.getD "chunk_hash" (.str "")).toStr env.repr
    if key ∈ seen then dedupe_chunks env document_id seen rest
    else do
      let out ← dedupe_chunks env document_id (key :: seen) rest
      pure (normalized :: out)

/-- `replace_chunks` of the in-memory repository. -/
def replace_chunks (tenant_id document_id : String) (chunks : List PyDict) :
    Act (List PyDict) := do
  let w ← read
  match w.store.documents.get? document_id with
  | none => pure []
  | some document =>
    if document.tenant_id ≠ tenant_id then pure []
    else do
      update (fun s => { s with document_chunks := s.document_chunks.set document_id chunks })
      pure chunks

def persist_document_chunks (env : Env) (tenant_id document_id : String)
    (chunks : List PyDict) : Act (List PyDict) := do
  let deduped ← lift (dedupe_chunks env document_id [] chunks)
  replace_chunks tenant_id document_id deduped

/-! ## The MinerU service -/

/-- The manifest of a call that raised. -/
def fail_manifest (env : Env) (manifest : ParseManifest) (error_code : String) : Act Unit := do
  let ended_at ← utcnow env
  persist_parse_manifest { manifest with
    status := "failed"
    ended_at := some ended_at
    error_code := some error_code }

/-- No chunk at all replaces nothing. -/
def replace_some_chunks (tenant_id document_id : String) (chunks : List PyDict) : Act Unit :=
  if chunks = [] then pure ()
  else do
    let _ ← replace_chunks tenant_id document_id chunks
    pure ()

/-- The writes of one call of the service. At its end the service gives
`upsert` a tenant, which the repository of the store does not take: the
`TypeError` turns a call that had chunks into a failed one. -/
def parse_and_persist (env : Env) (document_id tenant_id job_id : String)
    (outcome : MineruOutcome) : Act Unit := do
  let w ← read
  match get_parse_manifest_for_tenant w.store job_id tenant_id with
  | none => pure ()
  | some manifest => do
    let started_at ← utcnow env
    let manifest := { manifest with status := "parsing", started_at := some started_at }
    persist_parse_manifest manifest
    match outcome with
    | .failed error_code => fail_manifest env manifest error_code
    | .completed chunks => do
      replace_some_chunks tenant_id document_id chunks
      let ended_at ← utcnow env
      persist_parse_manifest { manifest with
        status := "completed"
        ended_at := some ended_at
        error_code := none }
      let w ← read
      match (w.store.documents.get? document_id).filter (fun d => d.tenant_id = tenant_id) with
      | none => pure ()
      | some _ => fail_manifest env manifest "DOC_PARSE_UNKNOWN_ERROR"

/-- `_try_mineru_official_api`. After each call of the service the code asks
the repository for `get_chunks`, which no repository has, and it catches
the `AttributeError`: so no chunk ever comes back from here. -/
def try_mineru_official_api (env : Env) (document_id tenant_id : String)
    (manifest : Option ParseManifest) : Act Unit :=
  match manifest with
  | none => pure ()
  | some manifest => do
    let n ← draw
    (env.mineru n).foldlM
      (fun _ outcome => parse_and_persist env document_id tenant_id manifest.job_id outcome) ()

/-! ## The chain of parsers -/

def fallback_exhausted (attempts : Nat) (last_error : Option String) : Act α :=
  raise_api "PARSER_FALLBACK_EXHAUSTED"
    (match last_error with
      | none => "no parser adapter available"
      | some code =>
        "no parser adapter available after " ++ toString attempts ++ " attempts: " ++ code)
    "transient" true 503

/-- The loop of `parse_with_route`. Only an `ApiError` goes on to the next
candidate. -/
def parse_candidates (env : Env) (attempts : Nat) :
    Option String → List String → Act PyDict
  | last_error, [] => fallback_exhausted attempts last_error
  | last_error, parser_name :: rest =>
    match env.adapter parser_name with
    | none => parse_candidates env attempts last_error rest
    | some parse => do
      let n ← draw
      match parse n with
      | .ok chunk => pure chunk
      | .error (.api e) => parse_candidates env attempts (some e.code) rest
      | .error e => raise e

/-- The parser, its fallbacks and its version that a manifest names. -/
def route_of (manifest : Option ParseManifest) : String × List String :=
  match manifest with
  | none => ("mineru", [])
  | some manifest => (manifest.parser_selected, manifest.fallback_chain)

def count_fallback (s : Store) : Store :=
  let m := s.parser_retrieval_metrics
  { s with parser_retrieval_metrics :=
    { m with parse_fallback_used_total := m.parse_fallback_used_total + 1 } }

def parse_by_route (env : Env) (document_id : String) (manifest : Option ParseManifest) :
    Act (List PyDict) := do
  let (parser_selected, fallback_chain) := route_of manifest
  let candidates := (parser_selected :: fallback_chain).take 3
  let chunk ← parse_candidates env candidates.length none candidates
  let normalized_chunk ← lift (ensure_chunk_shape env document_id chunk)
  let parser := ((normalized_chunk.get "parser").toStr env.repr)
  if parser ≠ parser_selected then do
    update count_fallback
    pure [normalized_chunk]
  else pure [normalized_chunk]

/-- The chunks of the local parser, if it has some and each has a shape. -/
def local_chunks (env : Env) (document_id : String) (raw_chunks : List PyDict) :
    Option (List PyDict) :=
  match raw_chunks.mapM (ensure_chunk_shape env document_id) with
  | .ok [] => none
  | .ok chunks => some chunks
  | .error _ => none

/-- What the local parser makes of the stored file, if there is one. -/
def local_raw_chunks (env : Env) (document : Document) (n : Nat) : List PyDict :=
  if document.storage_uri.isSome then env.local_parse n else []

def parse_document_file (env : Env) (document : Document) (tenant_id : String)
    (manifest : Option ParseManifest) : Act (List PyDict) := do
  try_mineru_official_api env document.document_id tenant_id manifest
  let n ← draw
  match local_chunks env document.document_id (local_raw_chunks env document n) with
  | some chunks => pure chunks
  | none => parse_by_route env document.document_id manifest

/-! ## The creation of a parse job -/

structure ParseRoute where
  parser_selected : String
  fallback_chain : List String
  parser_version : String

def office_or_html_suffixes : List String :=
  [".doc", ".docx", ".ppt", ".pptx", ".xls", ".xlsx", ".html", ".htm"]

def select_parse_route (filename doc_type : String) : ParseRoute :=
  let lower_name := filename.toLower
  if lower_name.endsWith ".pdf" then ⟨"mineru", ["docling", "ocr"], "v0"⟩
  else if office_or_html_suffixes.any (fun suffix => lower_name.endsWith suffix) then
    ⟨"docling", ["ocr"], "v0"⟩
  else if doc_type.toLower ∈ ["tender", "bid", "attachment"] then
    ⟨"mineru", ["docling", "ocr"], "v0"⟩
  else ⟨"ocr", [], "v0"⟩

def new_manifest (env : Env) (job_id tenant_id : String) (document : Document) :
    Act ParseManifest := do
  let hex ← uuid4_hex12 env
  let route := select_parse_route document.filename document.doc_type
  pure {
    run_id := "prun_" ++ hex
    job_id := job_id
    document_id := document.document_id
    tenant_id := tenant_id
    parser_selected := route.parser_selected
    parser_version := route.parser_version
    fallback_chain := route.fallback_chain
    started_at := none
    ended_at := none
    status := "queued"
    error_code := none
    content_source := none
    chunk_count := none }

def create_parse_job (env : Env) (document_id trace_id tenant_id : String) : Act String :=
  saving env do
    let document ← get_document_for_tenant document_id tenant_id
    match document with
    | none => raise_api "DOC_NOT_FOUND" "document not found" "validation" false 404
    | some document => do
      let hex ← uuid4_hex12 env
      let thread_id ← new_thread_id env "parse"
      let job ← persist_job {
        job_id := "job_" ++ hex
        job_type := .parse
        status := .queued
        retry_count := 0
        thread_id := thread_id
        tenant_id := tenant_id
        trace_id := trace_id
        resource_type := "document"
        resource_id := document_id
        payload := .parse document_id trace_id tenant_id
        last_error := none
        errors := []
        error_code := none
        next_retry_at := none }
      let manifest ← new_manifest env job.job_id tenant_id document
      persist_parse_manifest manifest
      persist_document { document with status := "parse_queued" }
      let _ ← announce_job env tenant_id job.job_id "parse" "document" document_id
      pure job.job_id

/-! ## The upload -/

structure UploadPayload where
  tenant_id : String
  trace_id : String
  project_id : String
  supplier_id : String
  doc_type : String
  filename : String
  file_sha256 : String
  file_size : Nat

/-- The first document of the tenant with the same content. -/
def find_document_by_file_sha256 (s : Store) (tenant_id file_sha256 : String) :
    Option Document :=
  s.documents.values.find? (fun d => d.tenant_id = tenant_id ∧ d.file_sha256 = file_sha256)

def duplicate_of (s : Store) (payload : UploadPayload) : Option Document :=
  if payload.file_sha256 = "" then none
  else find_document_by_file_sha256 s payload.tenant_id payload.file_sha256

/-- The stored file of an upload that has one. -/
def put_upload (env : Env) (tenant_id document_id : String) (has_file : Bool) :
    Act (Option String) :=
  if has_file then do
    let uri ← put_held_object env tenant_id "document" document_id
    pure (some uri)
  else pure none

/-- Returns the document and the job. A duplicate gets no new job. -/
def create_upload_job (env : Env) (payload : UploadPayload) (has_file : Bool) :
    Act (String × Option String) :=
  saving env do
    let w ← read
    match duplicate_of w.store payload with
    | some existing =>
      pure (existing.document_id,
        (w.store.jobs.get? existing.document_id).map (fun job => job.job_id))
    | none => do
      let hex ← uuid4_hex12 env
      let document_id := "doc_" ++ hex
      let storage_uri ← put_upload env payload.tenant_id document_id has_file
      persist_document {
        document_id := document_id
        tenant_id := payload.tenant_id
        project_id := payload.project_id
        supplier_id := payload.supplier_id
        doc_type := payload.doc_type
        filename := payload.filename
        file_sha256 := payload.file_sha256
        file_size := payload.file_size
        status := "uploaded"
        storage_uri := storage_uri }
      let _ ← persist_document_chunks env payload.tenant_id document_id []
      let job_id ← create_parse_job env document_id payload.trace_id payload.tenant_id
      pure (document_id, some job_id)

end bid_evaluation.store_parse
