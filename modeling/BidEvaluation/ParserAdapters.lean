-- `parser_adapters.py`, and `normalize_bbox` of `parse_utils.py`: parsers
-- behind an HTTP endpoint, and the chain that tries up to three of them. The
-- answer of an endpoint may be any JSON.
import BidEvaluation.Lib.Fallback
import BidEvaluation.Lib.Gives
import BidEvaluation.StoreParse

open dict_lib stepwise bid_evaluation.values bid_evaluation.core

namespace bid_evaluation.parser_adapters

/-! ## Boxes -/

def bbox_error (message : String) : PyErr :=
  .api ⟨"MINERU_BBOX_FORMAT_INVALID", message, "permanent", false, 422⟩

/-- The four numbers, where a `TypeError` or a `ValueError` is a bad box. -/
def bbox_numbers (env : Env) (bbox : List PyVal) : Except PyErr (List Rat) :=
  match bbox.mapM (PyVal.float_of env.float_of_str) with
  | .ok numbers => .ok numbers
  | .error (.raised class_name text) =>
    if class_name = "TypeError" ∨ class_name = "ValueError" then
      .error (bbox_error "bbox must contain numeric values")
    else .error (.raised class_name text)
  | .error e => .error e

/-- Two corners, or a corner and a size. -/
def box_of_numbers (force_format : Option String) (x0 y0 v2 v3 : Rat) : Except PyErr (List Rat) :=
  match force_format with
  | some "xyxy" =>
    if v2 > x0 ∧ v3 > y0 then .ok [x0, y0, v2, v3] else .error (bbox_error "invalid xyxy bbox")
  | some "xywh" =>
    if v2 > 0 ∧ v3 > 0 then .ok [x0, y0, x0 + v2, y0 + v3]
    else .error (bbox_error "invalid xywh bbox")
  | _ =>
    if v2 > x0 ∧ v3 > y0 then .ok [x0, y0, v2, v3]
    else if v2 > 0 ∧ v3 > 0 then .ok [x0, y0, x0 + v2, y0 + v3]
    else .error (bbox_error "bbox format cannot be determined")

def normalize_bbox (env : Env) (bbox : List PyVal) (force_format : Option String) :
    Except PyErr (List Rat) := do
  match ← (if bbox.length = 4 then bbox_numbers env bbox
      else .error (bbox_error "bbox requires 4 numbers")) with
  | [x0, y0, v2, v3] => box_of_numbers force_format x0 y0 v2 v3
  | _ => .error (bbox_error "bbox requires 4 numbers")

variable {env : Env}

theorem float_of_int {n : Int} (h : n.natAbs < FLOAT_LIMIT) :
    PyVal.float_of env.float_of_str (.int n) = .ok (n : Rat) := by
  dsimp only [PyVal.float_of]
  rw [if_pos h]

theorem normalize_bbox_numbers {bbox : List PyVal} {force_format : Option String} {x0 y0 v2 v3 : Rat}
    (hlen : bbox.length = 4) (hnumbers : bbox_numbers env bbox = .ok [x0, y0, v2, v3]) :
    normalize_bbox env bbox force_format = box_of_numbers force_format x0 y0 v2 v3 := by
  unfold normalize_bbox
  rw [if_pos hlen, hnumbers]
  rfl

/-- Two corners of ints that are no larger than a float can be. -/
theorem normalize_int_box {x0 y0 x1 y1 : Int}
    (hsmall : ∀ n ∈ [x0, y0, x1, y1], n.natAbs < FLOAT_LIMIT) (hx : x0 < x1) (hy : y0 < y1) :
    normalize_bbox env [.int x0, .int y0, .int x1, .int y1] none =
      .ok [(x0 : Rat), (y0 : Rat), (x1 : Rat), (y1 : Rat)] := by
  have hnumbers : [PyVal.int x0, .int y0, .int x1, .int y1].mapM (PyVal.float_of env.float_of_str) =
      .ok [(x0 : Rat), (y0 : Rat), (x1 : Rat), (y1 : Rat)] := by
    simp only [List.mapM_cons, List.mapM_nil]
    rw [float_of_int (hsmall x0 (by simp)), float_of_int (hsmall y0 (by simp)),
      float_of_int (hsmall x1 (by simp)), float_of_int (hsmall y1 (by simp))]
    rfl
  have hboxes : bbox_numbers env [.int x0, .int y0, .int x1, .int y1] =
      .ok [(x0 : Rat), (y0 : Rat), (x1 : Rat), (y1 : Rat)] := by
    unfold bbox_numbers
    rw [hnumbers]
  rw [normalize_bbox_numbers rfl hboxes]
  unfold box_of_numbers
  dsimp only
  rw [if_pos ⟨Rat.intCast_lt_intCast.2 hx, Rat.intCast_lt_intCast.2 hy⟩]

theorem box_of_numbers_length (force_format : Option String) (x0 y0 v2 v3 : Rat) :
    Gives (box_of_numbers force_format x0 y0 v2 v3) fun box => box.length = 4 := by
  unfold box_of_numbers
  split
  · split <;> simp
  · split <;> simp
  · split
    · simp
    · split <;> simp

theorem normalize_bbox_length (bbox : List PyVal) (force_format : Option String) :
    Gives (normalize_bbox env bbox force_format) fun box => box.length = 4 := by
  unfold normalize_bbox
  apply gives_bind
  intro numbers
  split
  · exact box_of_numbers_length force_format _ _ _ _
  · exact gives_error

/-- A list of four, or the box that stands for anything else. -/
def box_or (default : List PyVal) : PyVal → List PyVal
  | .list bbox => if bbox.length = 4 then bbox else default
  | _ => default

/-! ## Adapters -/

structure HttpParserAdapter where
  name : String
  version : String
  section_name : String
  endpoint : String

/-- `__init__` strips the endpoint. -/
def HttpParserAdapter.init (name section_name endpoint version : String) : HttpParserAdapter :=
  ⟨name, version, section_name, strip endpoint⟩

/-- What a post to an endpoint gives: any JSON, one of the errors that the
adapter catches, or any other one. -/
inductive PostReply where
  | answered (payload : PyVal)
  | unavailable
  | raises (class_name : String) (text : String)

/-- What a document gives to each adapter. -/
structure ParseArgs where
  document_id : String
  default_text : String
  parser_version : String

def default_box : List PyVal := [.int 100, .int 120, .int 520, .int 380]

def stub_chunk (env : Env) (adapter : HttpParserAdapter) (args : ParseArgs) : Except PyErr PyDict := do
  let bbox ← normalize_bbox env default_box none
  pure [("document_id", .str args.document_id),
    ("pages", .list [.int 1]),
    ("positions", .list [.dict [("page", .int 1), ("bbox", .list (bbox.map .float)), ("start", .int 0),
      ("end", .int 128)]]),
    ("section", .str adapter.section_name),
    ("heading_path", .list [.str "section-1", .str adapter.name]),
    ("chunk_type", .str "text"),
    ("parser", .str adapter.name),
    ("parser_version", .str (if args.parser_version = "" then adapter.version else args.parser_version)),
    ("content_source", .str "stub"),
    ("text", .str args.default_text)]

def box_of_source (source : PyDict) : List PyVal := box_or default_box (PyDict.get source "bbox")

def headings_of_source (source : PyDict) (parser : String) : PyVal :=
  match PyDict.get source "heading_path" with
  | .list (heading :: rest) => .list (heading :: rest)
  | _ => .list [.str "section-1", .str parser]

def page_of_source (source : PyDict) : Except PyErr Int := ((PyDict.get source "page").or (.int 1)).toInt

/-- `str(source.get(key) or default)`. -/
def text_field (env : Env) (source : PyDict) (key default : String) : String :=
  ((PyDict.get source key).or (.str default)).toStr env.repr

def normalized_chunk (env : Env) (source : PyDict) (parser : String) (args : ParseArgs)
    (default_section content_source : String) : Except PyErr PyDict := do
  let text := text_field env source "text" args.default_text
  let page ← page_of_source source
  let bbox ← normalize_bbox env (box_of_source source) none
  pure [("document_id", .str args.document_id),
    ("pages", .list [.int page]),
    ("positions", .list [.dict [("page", .int page), ("bbox", .list (bbox.map .float)), ("start", .int 0),
      ("end", .int (max 1 text.length))]]),
    ("section", .str (text_field env source "section" default_section)),
    ("heading_path", headings_of_source source parser),
    ("chunk_type", .str (text_field env source "chunk_type" "text")),
    ("parser", .str parser),
    ("parser_version", .str args.parser_version),
    ("content_source", .str content_source),
    ("text", .str text)]

/-! ## Answers -/

/-- The first object of a list. -/
def first_object : PyVal → Option PyDict
  | .list rows => rows.findSome? fun row =>
    match row with
    | .dict d => some d
    | _ => none
  | _ => none

/-- The markdown of an answer, under one name or the other. -/
def markdown_of (payload : PyDict) : Option String :=
  match PyDict.get payload "full_md", PyDict.get payload "full.md" with
  | .str text, _ => some text
  | _, .str text => some text
  | _, _ => none

/-- What a chunk is made from, and where it stood. -/
structure Source where
  fields : PyDict
  content_source : String

def source_of (payload : PyDict) : Option Source :=
  match first_object (PyDict.get payload "chunks"), first_object (PyDict.get payload "content_list"),
      markdown_of payload with
  | some row, _, _ => some ⟨row, "chunks"⟩
  | none, some row, _ => some ⟨row, "content_list"⟩
  | none, none, some text =>
    if strip text = "" then none
    else some ⟨[("text", .str (strip text)), ("page", .int 1)], "full_md"⟩
  | none, none, none => none

def transient (code message : String) : PyErr := .api ⟨code, message, "transient", true, 503⟩

def chunk_from_response (env : Env) (adapter : HttpParserAdapter) (args : ParseArgs) (payload : PyDict) :
    Except PyErr PyDict :=
  match source_of payload with
  | some source =>
    normalized_chunk env source.fields adapter.name args (adapter.name ++ "_parsed") source.content_source
  | none =>
    .error (transient "DOC_PARSE_OUTPUT_NOT_FOUND"
      (adapter.name ++ " response does not contain parse payload"))

def HttpParserAdapter.parse (env : Env) (adapter : HttpParserAdapter) (reply : PostReply)
    (args : ParseArgs) : Except PyErr PyDict :=
  if adapter.endpoint = "" then stub_chunk env adapter args
  else
    match reply with
    | .answered (.dict payload) =>
      chunk_from_response env adapter
        { args with
          parser_version := if args.parser_version = "" then adapter.version else args.parser_version }
        payload
    | .answered _ =>
      .error (transient "DOC_PARSE_SCHEMA_INVALID" (adapter.name ++ " parser response schema invalid"))
    | .unavailable =>
      .error (transient "DOC_PARSE_UPSTREAM_UNAVAILABLE" (adapter.name ++ " parser endpoint unavailable"))
    | .raises class_name text => .error (.raised class_name text)

/-! ## The chain -/

structure ParseRoute where
  selected : String
  fallback_chain : List String
  parser_version : String

abbrev Registry := Dict String HttpParserAdapter

def candidates_of (route : ParseRoute) : List String :=
  (route.selected :: route.fallback_chain).take 3

def fallback_exhausted (attempts : Nat) (last_error : Option ApiError) : PyErr :=
  transient "PARSER_FALLBACK_EXHAUSTED"
    (match last_error with
    | none => "no parser adapter available"
    | some e => "no parser adapter available after " ++ toString attempts ++ " attempts: " ++ e.code)

/-- The loop over the candidates. `post_json` has the replies of the endpoints,
first to last. -/
def try_candidates (env : Env) (registry : Registry) (post_json : Nat → PostReply) (args : ParseArgs)
    (attempts : Nat) : Nat → Option ApiError → List String → Except PyErr PyDict
  | _, last_error, [] => .error (fallback_exhausted attempts last_error)
  | n, last_error, parser_name :: rest =>
    match registry.get? parser_name with
    | none => try_candidates env registry post_json args attempts n last_error rest
    | some adapter =>
      match adapter.parse env (post_json n) args with
      | .ok chunk => .ok chunk
      | .error (.api e) => try_candidates env registry post_json args attempts (n + 1) (some e) rest
      | .error e => .error e

def parse_with_route (env : Env) (registry : Registry) (post_json : Nat → PostReply)
    (route : ParseRoute) (document_id default_text : String) : Except PyErr PyDict :=
  try_candidates env registry post_json ⟨document_id, default_text, route.parser_version⟩
    (candidates_of route).length 0 none (candidates_of route)

end bid_evaluation.parser_adapters
