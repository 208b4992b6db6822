-- The client and the adapter of `mineru_official_api.py`: a file is handed to
-- the MinerU service, which is asked for its state until it has a result or
-- the time is up, and the result becomes one chunk. The service may answer
-- anything at any time, so each answer depends on all that was done before.
import BidEvaluation.Lib.Polling
import BidEvaluation.MineruFiles
import BidEvaluation.RetrievalQuery

open dict_lib stepwise bid_evaluation.values bid_evaluation.core bid_evaluation.mineru_chunks
  bid_evaluation.mineru_files
open bid_evaluation.retrieval (contains)

namespace bid_evaluation.mineru_client

/-! ## The outside -/

/-- What the client does that the outside can see. -/
inductive Call where
  | now
  | sleep (seconds : Rat)
  | api (method url : String) (data : Option PyDict)
  | put (upload_url : PyVal)
  | fetch (zip_url : String)

/-- All that was done so far, oldest first. -/
abbrev History := List Call

/-- What `urlopen` of the API gives: a body, an `HTTPError`, any other
`URLError` or `OSError`, or what is not caught. -/
inductive HttpReply where
  | read (raw : String)
  | http_error (code : Int) (raw : String)
  | unreachable (text : String)
  | raises (class_name text : String)

/-- What `requests.put` gives, with its two kinds of error. -/
inductive PutReply where
  | status (status_code : Int) (text : String)
  | timeout (text : String)
  | failed (text : String)

/-- What the download of a zip gives. -/
inductive FetchReply (β : Type) where
  | zip (entries : List (ZipEntry β))
  | bad_zip (text : String)
  | unreachable (text : String)
  | raises (class_name text : String)

/-- The outside answers a call by the history that ends with it. -/
structure ServiceEnv (β : Type) where
  env : Env
  json_loads : String → Except PyErr PyVal
  lower : String → String
  decode : β → String
  clock : History → Rat
  http : History → HttpReply
  put : History → PutReply
  fetch : History → FetchReply β

abbrev Talk (α : Type) := Prog History PyErr α

variable {β : Type}

def tell (call : Call) : Talk Unit := write fun h => h ++ [call]

/-- `time.time()`. -/
def time (g : ServiceEnv β) : Talk Rat := do
  tell .now
  let h ← read
  pure (g.clock h)

structure MineruApiConfig where
  api_base : String
  poll_interval_s : Rat
  max_poll_time_s : Rat
  is_ocr : Bool
  enable_formula : Bool

/-! ## Errors -/

def transient (code message : String) : PyErr := .api ⟨code, message, "transient", true, 503⟩

def upstream_error (message : String) : PyErr := transient "DOC_PARSE_UPSTREAM_ERROR" message

def schema_invalid (message : String) : PyErr := transient "DOC_PARSE_SCHEMA_INVALID" message

def output_not_found (message : String) : PyErr := transient "DOC_PARSE_OUTPUT_NOT_FOUND" message

def timed_out (message : String) : PyErr := transient "DOC_PARSE_TIMEOUT" message

/-! ## Answers -/

/-- `value.get(name, default)`. -/
def get_of (value : PyVal) (name : String) (default : PyVal) : Except PyErr PyVal :=
  match value with
  | .dict entries => .ok (PyDict.getD entries name default)
  | _ => .error (.raised "AttributeError" "object has no attribute 'get'")

/-- `value[0]`. -/
def first_of : PyVal → Except PyErr PyVal
  | .list (x :: _) => .ok x
  | .list [] => .error (.raised "IndexError" "list index out of range")
  | .str s =>
    match s.toList with
    | c :: _ => .ok (.str (String.ofList [c]))
    | [] => .error (.raised "IndexError" "string index out of range")
  | .dict _ => .error (.raised "KeyError" "0")
  | _ => .error (.raised "TypeError" "object is not subscriptable")

/-- `value == 0`. -/
def is_zero : PyVal → Bool
  | .int n => n = 0
  | .float x => x = 0
  | .bool b => !b
  | _ => false

/-- `value == text`. -/
def is_text (value : PyVal) (text : String) : Bool :=
  match value with
  | .str s => s = text
  | _ => false

def first_chars (n : Nat) (text : String) : String := String.ofList (text.toList.take n)

section answers

variable (g : ServiceEnv β)

def text_of (value : PyVal) : String := value.toStr g.env.repr

/-- What `_make_request` makes of a reply. -/
def read_reply : HttpReply → Except PyErr PyVal
  | .read raw => g.json_loads raw
  | .http_error code raw =>
    match g.json_loads raw with
    | .ok error_data => do
      let msg ← get_of error_data "msg" (.str raw)
      .error (upstream_error ("MinerU API error: " ++ text_of g msg))
    | .error (.raised "JSONDecodeError" _) =>
      .error (upstream_error ("MinerU API HTTP " ++ toString code ++ ": " ++ first_chars 200 raw))
    | .error e => .error e
  | .unreachable text =>
    .error (transient "DOC_PARSE_UPSTREAM_UNAVAILABLE" ("MinerU API unavailable: " ++ text))
  | .raises class_name text => .error (.raised class_name text)

/-- The id of the task that a submission made. -/
def task_id_of (result : PyVal) : Except PyErr String := do
  let code ← get_of result "code" .none
  if !is_zero code then do
    let msg ← get_of result "msg" (.str "Unknown error")
    if contains (g.lower (text_of g msg)) "retry limit" then
      .error (.api ⟨"MINERU_RETRY_LIMIT_REACHED",
        "MinerU retry limit reached for this file: " ++ text_of g msg, "permanent", false, 400⟩)
    else .error (upstream_error ("MinerU task submission failed: " ++ text_of g msg))
  else do
    let data ← get_of result "data" (.dict [])
    let task_id ← get_of data "task_id" .none
    if task_id.truthy then pure (text_of g task_id)
    else .error (schema_invalid "MinerU response missing task_id")

/-- The batch that an upload request made, and the places for its files. -/
def upload_urls_of (result : PyVal) : Except PyErr (String × PyVal) := do
  let code ← get_of result "code" .none
  if !is_zero code then do
    let msg ← get_of result "msg" (.str "Unknown error")
    .error (upstream_error ("MinerU file upload URL request failed: " ++ text_of g msg))
  else do
    let data ← get_of result "data" (.dict [])
    let batch_id ← get_of data "batch_id" .none
    let file_urls ← get_of data "file_urls" (.list [])
    if batch_id.truthy && file_urls.truthy then pure (text_of g batch_id, file_urls)
    else .error (schema_invalid "MinerU response missing batch_id or file_urls")

/-- The data of a status answer. `what` is asked about a task or a batch. -/
def status_data (what : String) (result : PyVal) : Except PyErr PyVal := do
  let code ← get_of result "code" .none
  if !is_zero code then do
    let msg ← get_of result "msg" .none
    .error (upstream_error ("MinerU " ++ what ++ " status query failed: " ++ text_of g msg))
  else get_of result "data" (.dict [])

/-- Nothing, while the task is not done. -/
def task_verdict (data : PyVal) : Except PyErr (Option String) := do
  let state ← get_of data "state" (.str "unknown")
  if is_text state "done" then do
    let zip_url ← get_of data "full_zip_url" .none
    if zip_url.truthy then pure (some (text_of g zip_url))
    else .error (output_not_found "MinerU task completed but no zip_url returned")
  else if is_text state "failed" then do
    let err_msg ← get_of data "err_msg" (.str "Unknown error")
    .error (upstream_error ("MinerU task failed: " ++ text_of g err_msg))
  else pure none

def zip_urls_of : List PyVal → Except PyErr (List String)
  | [] => pure []
  | r :: rest => do
    let zip_url ← get_of r "full_zip_url" .none
    let zip_urls ← zip_urls_of rest
    pure (if zip_url.truthy then text_of g zip_url :: zip_urls else zip_urls)

/-- The first result speaks for all. Nothing, while it is not done. -/
def batch_verdict (data : PyVal) : Except PyErr (Option (List String)) := do
  let extract_results ← get_of data "extract_result" (.list [])
  if !extract_results.truthy then pure none
  else do
    let first_result ← first_of extract_results
    let state ← get_of first_result "state" (.str "unknown")
    if is_text state "done" then do
      let zip_urls ← zip_urls_of g (match extract_results with | .list items => items | _ => [])
      if zip_urls = [] then
        .error (output_not_found "MinerU batch completed but no zip_urls returned")
      else pure (some zip_urls)
    else if is_text state "failed" then do
      let err_msg ← get_of first_result "err_msg" (.str "Unknown error")
      .error (upstream_error ("MinerU batch failed: " ++ text_of g err_msg))
    else pure none

end answers

/-! ## The client -/

section client

variable (g : ServiceEnv β) (cfg : MineruApiConfig)

def make_request (method endpoint : String) (data : Option PyDict) : Talk PyVal := do
  tell (.api method (cfg.api_base ++ endpoint) data)
  let h ← read
  lift (read_reply g (g.http h))

def submit_task (file_url : String) (page_ranges : Option String) : Talk String := do
  let pages : PyDict :=
    match page_ranges with
    | none => []
    | some text => if text = "" then [] else [("page_ranges", .str text)]
  let data : PyDict := [("url", .str file_url), ("is_ocr", .bool cfg.is_ocr),
    ("enable_formula", .bool cfg.enable_formula)] ++ pages
  let result ← make_request g cfg "POST" "/extract/task" (some data)
  lift (task_id_of g result)

def request_upload_urls (filename data_id : String) : Talk (String × PyVal) := do
  let files : PyVal := .list [.dict [("name", .str filename), ("data_id", .str data_id)]]
  let result ← make_request g cfg "POST" "/file-urls/batch"
    (some [("files", files), ("model_version", .str "vlm")])
  lift (upload_urls_of g result)

/-- What `upload_file_to_url` makes of the reply. -/
def read_put : PutReply → Except PyErr Unit
  | .status status_code text =>
    if status_code = 200 ∨ status_code = 204 then .ok ()
    else .error (upstream_error ("MinerU file upload failed with status " ++
      toString status_code ++ ": " ++ first_chars 200 text))
  | .timeout text => .error (timed_out ("MinerU file upload timed out: " ++ text))
  | .failed text =>
    .error (transient "DOC_PARSE_UPSTREAM_UNAVAILABLE" ("MinerU file upload failed: " ++ text))

def upload_file_to_url (upload_url : PyVal) : Talk Unit := do
  tell (.put upload_url)
  let h ← read
  lift (read_put (g.put h))

/-- What is polled: where to ask, and what an answer decides. -/
structure Watch (α : Type) where
  endpoint : String
  what : String
  verdict : PyVal → Except PyErr (Option α)

def task_watch (task_id : String) : Watch String where
  endpoint := "/extract/task/" ++ task_id
  what := "task"
  verdict := task_verdict g

def batch_watch (batch_id : String) : Watch (List String) where
  endpoint := "/extract-results/batch/" ++ batch_id
  what := "batch"
  verdict := batch_verdict g

def get_status (w : Watch α) : Talk PyVal := do
  let result ← make_request g cfg "GET" w.endpoint none
  lift (status_data g w.what result)

def get_task_status (task_id : String) : Talk PyVal := get_status g cfg (task_watch g task_id)

def get_batch_status (batch_id : String) : Talk PyVal := get_status g cfg (batch_watch g batch_id)

def within_time (start : Rat) : Talk Bool := do
  let t ← time g
  pure (decide (t - start < cfg.max_poll_time_s))

def ask (w : Watch α) : Talk (Option α) := do
  let data ← get_status g cfg w
  lift (w.verdict data)

def too_late (w : Watch α) : PyErr :=
  timed_out ("MinerU " ++ w.what ++ " timed out after " ++
    text_of g (.float cfg.max_poll_time_s) ++ "s")

/-- The loop of the two functions below. It gives `none` where the fuel ends. -/
def poll_status (w : Watch α) (fuel : Nat) : Talk (Option α) := do
  let start ← time g
  poll (within_time g cfg start) (ask g cfg w) (tell (.sleep cfg.poll_interval_s))
    (too_late g cfg w) fuel

def poll_until_complete (task_id : String) (fuel : Nat) : Talk (Option String) :=
  poll_status g cfg (task_watch g task_id) fuel

def poll_batch_until_complete (batch_id : String) (fuel : Nat) : Talk (Option (List String)) :=
  poll_status g cfg (batch_watch g batch_id) fuel

def read_zip : FetchReply β → Except PyErr (List (String × String))
  | .zip entries => .ok (extract_zip_content g.decode entries)
  | .bad_zip text => .error (schema_invalid ("MinerU result zip is corrupted: " ++ text))
  | .unreachable text =>
    .error (output_not_found ("Failed to download MinerU result zip: " ++ text))
  | .raises class_name text => .error (.raised class_name text)

def download_and_extract_zip (zip_url : String) : Talk (List (String × String)) := do
  tell (.fetch zip_url)
  let h ← read
  lift (read_zip g (g.fetch h))

end client

/-! ## The adapter -/

structure MineruOfficialApiAdapter where
  name : String
  version : String

/-- `parser_version or self.version`. -/
def version_or (adapter : MineruOfficialApiAdapter) (parser_version : Option String) : String :=
  match parser_version with
  | none => adapter.version
  | some version => if version = "" then adapter.version else version

/-- `_build_heading_path` of the adapter. The text is not stripped here. -/
def heading_path_of (item : RawContentItem) : List String :=
  match item.text_level with
  | some level =>
    if 1 ≤ level then ["h" ++ toString level, first_chars 50 item.text] else ["content"]
  | none => ["content"]

def to_chunk_dict (item : RawContentItem) (document_id parser parser_version : String)
    (section_name : String) (heading_path : List String) : PyDict :=
  [("document_id", .str document_id),
    ("pages", .list [.int (item.page_idx + 1)]),
    ("positions", .list [.dict [("page", .int (item.page_idx + 1)), ("bbox", bbox_value item.bbox),
      ("start", .int 0), ("end", .int item.text.length)]]),
    ("section", .str section_name),
    ("heading_path", .list (heading_path.map .str)),
    ("chunk_type", .str item.type),
    ("parser", .str parser),
    ("parser_version", .str parser_version),
    ("content_source", .str "mineru_official_api"),
    ("text", .str item.text)]

/-- The chunk where there is no item with a text. -/
def markdown_chunk (full_md document_id parser parser_version : String) : PyDict :=
  [("document_id", .str document_id),
    ("pages", .list [.int 1]),
    ("positions", .list [.dict [("page", .int 1),
      ("bbox", .list [.float 0, .float 0, .float 1, .float 1]),
      ("start", .int 0), ("end", .int full_md.length)]]),
    ("section", .str "mineru_official_parsed"),
    ("heading_path", .list [.str "content"]),
    ("chunk_type", .str "text"),
    ("parser", .str parser),
    ("parser_version", .str parser_version),
    ("content_source", .str "mineru_full_md"),
    ("text", .str (first_chars 5000 full_md))]

section adapter

variable (g : ServiceEnv β) (cfg : MineruApiConfig) (adapter : MineruOfficialApiAdapter)

/-- The chunk that both ways of parsing make of the files of a zip. -/
def chunk_of_content (document_id : String) (parser_version : Option String)
    (content : List (String × String)) : Except PyErr PyDict := do
  let content_list ← parse_content_list g.env g.json_loads content
  match content_list.find? fun item => !is_blank item.text with
  | some item => pure (to_chunk_dict item document_id adapter.name
      (version_or adapter parser_version) "mineru_official_parsed" (heading_path_of item))
  | none =>
    match extract_full_md content with
    | none => .error (output_not_found "MinerU result contains no parseable content")
    | some full_md =>
      if full_md = "" then
        .error (output_not_found "MinerU result contains no parseable content")
      else pure (markdown_chunk full_md document_id adapter.name
        (version_or adapter parser_version))

/-- The chunk of the zip at a place. -/
def chunk_of_zip (document_id : String) (parser_version : Option String) (zip_url : String) :
    Talk (Option PyDict) := do
  let content ← download_and_extract_zip g zip_url
  let chunk ← lift (chunk_of_content g adapter document_id parser_version content)
  pure (some chunk)

/-- The chunk of `zip_urls[0]`. -/
def chunk_of_first (document_id : String) (parser_version : Option String) :
    Option (List String) → Talk (Option PyDict)
  | some (zip_url :: _) => chunk_of_zip g adapter document_id parser_version zip_url
  | some [] => raise (.raised "IndexError" "list index out of range")
  | none => pure none

/-- `document_id or "doc"`. -/
def data_id_of (document_id : String) : String := if document_id = "" then "doc" else document_id

def parse_from_bytes (filename document_id : String) (parser_version : Option String)
    (fuel : Nat) : Talk (Option PyDict) := do
  let answer ← request_upload_urls g cfg filename (data_id_of document_id)
  let upload_url ← lift (first_of answer.2)
  upload_file_to_url g upload_url
  let zip_urls ← poll_batch_until_complete g cfg answer.1 fuel
  chunk_of_first g adapter document_id parser_version zip_urls

def parse_from_url (file_url document_id : String) (page_ranges parser_version : Option String)
    (fuel : Nat) : Talk (Option PyDict) := do
  let task_id ← submit_task g cfg file_url page_ranges
  match ← poll_until_complete g cfg task_id fuel with
  | some zip_url => chunk_of_zip g adapter document_id parser_version zip_url
  | none => pure none

end adapter

end bid_evaluation.mineru_client
