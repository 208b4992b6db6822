-- `sql_whitelist.py`, and `retrieval_query` and `retrieval_preview` of
-- `store_retrieval.py`. The index service may answer anything. What a
-- retrieval counts, and its fields about the text of the query, are left out.
import BidEvaluation.AdminStore
import BidEvaluation.Reranker
import BidEvaluation.StoreRetrieval

open dict_lib stepwise bid_evaluation.values bid_evaluation.core bid_evaluation.store_retrieval
  bid_evaluation.admin_store bid_evaluation.reranker

namespace bid_evaluation.retrieval

/-! ## The settings -/

/-- What a query of the index gives: a value, an exception that the code
swallows, or any other one. -/
inductive IndexReply where
  | answered (result : PyVal)
  | swallowed_failure
  | raises (e : PyErr)

structure RetrievalEnv where
  core : Env
  rerankers : Rerankers
  /-- `LIGHTRAG_DSN` names a service, which is asked over HTTP. -/
  lightrag_dsn : Bool
  query_index : Nat → IndexReply
  lower : String → String

structure RetrievalArgs where
  tenant_id : String
  project_id : String
  supplier_id : String
  query : String
  query_type : String
  high_risk : Bool
  top_k : Int
  doc_scope : List String
  enable_rerank : Bool
  must_include_terms : List String
  must_exclude_terms : List String
  structured_filters : PyVal

/-! ## Python equality and sets -/

/-- `x == s` for a string `s`. -/
def is_str (x : PyVal) (s : String) : Bool :=
  match x with
  | .str t => t = s
  | _ => false

/-- What a set compares of a value that can be hashed. -/
inductive HashKey where
  | none
  | number (x : Rat)
  | text (s : String)
deriving DecidableEq

def hash_key : PyVal → Except PyErr HashKey
  | .none => .ok .none
  | .bool b => .ok (.number (if b then 1 else 0))
  | .int n => .ok (.number n)
  | .float x => .ok (.number x)
  | .str s => .ok (.text s)
  | .list _ => .error (type_error "unhashable type: 'list'")
  | .dict _ => .error (type_error "unhashable type: 'dict'")

def default_bbox : PyVal := .list [.int 0, .int 0, .int 1, .int 1]

/-! ## The structured query -/

def WHITELIST_FIELDS : List String :=
  ["supplier_code", "qualification_level", "registered_capital", "bid_price", "delivery_period",
    "warranty_period"]

def NUMERIC_FIELDS : List String :=
  ["registered_capital", "bid_price", "delivery_period", "warranty_period"]

def value_error (text : String) : PyErr := .raised "ValueError" text

def validate_structured_filters (filters : PyVal) : Except PyErr PyDict :=
  match filters with
  | .dict d =>
    if (d.filter (fun e => e.1 ∉ WHITELIST_FIELDS)) = [] then .ok d
    else .error (value_error "non-whitelisted fields")
  | _ => .error (value_error "structured_filters must be a dict")

def match_string_field (env : Env) (actual expected : PyVal) : Bool :=
  match actual with
  | .none => false
  | actual => actual.toStr env.repr = expected.toStr env.repr

/-- `float(x)` where a `TypeError` or a `ValueError` is no number. -/
def number? (env : Env) (x : PyVal) : Except PyErr (Option Rat) :=
  match x.toFloat env.float_of_str with
  | .ok n => .ok (some n)
  | .error (.raised class_name text) =>
    if class_name = "TypeError" ∨ class_name = "ValueError" then .ok none
    else .error (.raised class_name text)
  | .error e => .error e

/-- One bound of a range, if the filter has it. -/
def within (env : Env) (bound : PyVal) (holds : Rat → Bool) : Except PyErr Bool :=
  match bound with
  | .none => .ok true
  | bound => (bound.toFloat env.float_of_str).map holds

def match_numeric_field (env : Env) (actual expected : PyVal) : Except PyErr Bool := do
  match actual with
  | .none => pure false
  | actual =>
    match ← number? env actual with
    | none => pure false
    | some actual_num =>
      match expected with
      | .dict range =>
        let lo := PyDict.get range "min"
        let hi := PyDict.get range "max"
        if !(← within env lo (fun lo => lo ≤ actual_num)) then pure false
        else if !(← within env hi (fun hi => actual_num ≤ hi)) then pure false
        else
          pure (match lo, hi with
            | .none, .none => false
            | _, _ => true)
      | expected =>
        match ← number? env expected with
        | none => pure false
        | some n => pure (actual_num = n)

/-- Of the whitelisted fields only the code stands in the supplier itself. -/
def get_supplier_field (supplier : Supplier) (field : String) : PyVal :=
  if field = "supplier_code" then .str supplier.supplier_code
  else
    match supplier.qualification with
    | .dict qual => PyDict.get qual field
    | _ => .none

def supplier_matches (env : Env) (supplier : Supplier) : PyDict → Except PyErr Bool
  | [] => .ok true
  | (field, expected) :: rest => do
    let actual := get_supplier_field supplier field
    let found ←
      if field ∈ NUMERIC_FIELDS then match_numeric_field env actual expected
      else pure (match_string_field env actual expected)
    if found then supplier_matches env supplier rest else pure false

/-- The suppliers of the tenant that match, or only the given one. -/
def matching_supplier_ids (env : Env) (suppliers : List Supplier) (args : RetrievalArgs)
    (filters : PyDict) : Except PyErr (List String) :=
  suppliers.foldlM (fun ids supplier => do
    if supplier.tenant_id ≠ args.tenant_id then pure ids
    else if args.supplier_id ≠ "" ∧ supplier.supplier_id ≠ args.supplier_id then pure ids
    else if ← supplier_matches env supplier filters then pure (ids ++ [supplier.supplier_id])
    else pure ids) []

def structured_hit (chunk_id : PyVal) (metadata : Metadata) : Item :=
  ⟨chunk_id, 1, "structured_match", metadata, none, none⟩

def source_metadata (source : CitationSource) : Except PyErr Metadata := do
  let page ← source.page.toInt
  pure {
    tenant_id := .str source.tenant_id
    project_id := .str source.project_id
    supplier_id := .str source.supplier_id
    document_id := .str source.document_id
    doc_type := .str source.doc_type
    page := page
    bbox := source.bbox }

def source_hit (ids : List String) (args : RetrievalArgs) (e : String × CitationSource) :
    Except PyErr (Option Item) :=
  let source := e.2
  if source.tenant_id ≠ args.tenant_id ∨ source.project_id ≠ args.project_id ∨
      source.supplier_id ∉ ids then
    pure none
  else do
    let metadata ← source_metadata source
    pure (some (structured_hit (.str e.1) metadata))

/-- The page and the box of the first position of a chunk. -/
def chunk_position (chunk : PyDict) : Except PyErr (Int × PyVal) :=
  match chunk.getD "positions" (.list []) with
  | .list (first :: _) => do
    let first := match first with
      | .dict d => d
      | _ => []
    let page ← (PyDict.getD first "page" (.int 1)).toInt
    pure (page, match PyDict.get first "bbox" with
      | .list bbox => if bbox.length = 4 then .list bbox else default_bbox
      | _ => default_bbox)
  | _ => .ok (1, default_bbox)

/-- The hits and the chunk ids that were seen. -/
abbrev Hits := List Item × List HashKey

def chunk_hit (document : Document) (args : RetrievalArgs) (hits : Hits) (chunk : PyDict) :
    Except PyErr Hits :=
  let cid := chunk.get "chunk_id"
  if cid.truthy = false then pure hits
  else do
    let key ← hash_key cid
    if key ∈ hits.2 then pure hits
    else do
      let (page, bbox) ← chunk_position chunk
      let metadata : Metadata := {
        tenant_id := .str args.tenant_id
        project_id := .str args.project_id
        supplier_id := .str document.supplier_id
        document_id := .str document.document_id
        doc_type := .str document.doc_type
        page := page
        bbox := bbox }
      pure (hits.1 ++ [structured_hit cid metadata], hits.2 ++ [key])

def document_hits (s : Store) (ids : List String) (args : RetrievalArgs) (hits : Hits)
    (e : String × List PyDict) : Except PyErr Hits :=
  match s.documents.get? e.1 with
  | none => pure hits
  | some document =>
    if document.tenant_id ≠ args.tenant_id ∨ document.project_id ≠ args.project_id ∨
        document.supplier_id ∉ ids then
      pure hits
    else e.2.foldlM (chunk_hit document args) hits

/-- The ids of the citation sources are distinct, as keys of a dictionary. -/
def query_structured (env : Env) (s : Store) (suppliers : List Supplier) (args : RetrievalArgs)
    (filters : PyDict) : Except PyErr (List Item) := do
  let ids ← matching_supplier_ids env suppliers args filters
  if ids = [] then pure []
  else do
    let found ← s.citation_sources.entries.mapM (source_hit ids args)
    let sources := found.filterMap id
    let seen ← sources.mapM (fun item => hash_key item.chunk_id)
    let hits ← s.document_chunks.entries.foldlM (document_hits s ids args) (sources, seen)
    pure hits.1

/-! ## The index -/

/-- Whether the type of a row is in the scope. An empty scope has all. -/
def in_doc_scope (doc_scope : List String) (doc_type : PyVal) : Except PyErr Bool :=
  if doc_scope = [] then .ok true
  else do
    let key ← hash_key doc_type
    pure (key ∈ doc_scope.map HashKey.text)

def row_metadata (row : PyDict) : PyDict :=
  match row.getD "metadata" (.dict []) with
  | .dict metadata => metadata
  | _ => []

/-- A row of the answer, unless it is of another scope. -/
def index_row (env : Env) (args : RetrievalArgs) (row : PyVal) : Except PyErr (Option Item) :=
  match row with
  | .dict row => do
    let metadata := row_metadata row
    let field := metadata.get
    if !is_str (field "tenant_id") args.tenant_id then pure none
    else if !is_str (field "project_id") args.project_id then pure none
    else if !is_str (field "supplier_id") args.supplier_id then pure none
    else if !(← in_doc_scope args.doc_scope (field "doc_type")) then pure none
    else
      let score_raw ← (PyDict.getD row "score_raw" (.float (1 / 2))).float_of env.float_of_str
      let page ← (metadata.getD "page" (.int 1)).toInt
      let text := PyDict.get row "text"
      pure (some {
        chunk_id := PyDict.get row "chunk_id"
        score_raw := score_raw
        reason := (PyDict.getD row "reason" (.str "matched retrieval intent")).toStr env.repr
        metadata := {
          tenant_id := field "tenant_id"
          project_id := field "project_id"
          supplier_id := field "supplier_id"
          document_id := field "document_id"
          doc_type := field "doc_type"
          page := page
          bbox := metadata.getD "bbox" default_bbox }
        text := if text.truthy then some text else none
        score_rerank := none })
  | _ => .ok none

/-- The dictionary that the index gave. A service may give any JSON. -/
def index_result (env : RetrievalEnv) (n : Nat) : Except PyErr (Option PyDict) :=
  match env.query_index n with
  | .answered (.dict result) =>
    match lookupEntry result "items" with
    | some (.list _) => .ok (some result)
    | some _ => .ok (if env.lightrag_dsn then none else some result)
    | none => .ok (some result)
  | .answered _ =>
    if env.lightrag_dsn then .ok none
    else .error (.raised "AttributeError" "object has no attribute 'get'")
  | .swallowed_failure => .ok none
  | .raises e => if env.lightrag_dsn then .error e else .ok none

/-- `none` when there is no answer. -/
def query_lightrag (env : RetrievalEnv) (args : RetrievalArgs) : Act (Option (List Item)) := do
  let _ ← retrieval_index_name env.core args.tenant_id args.project_id
  let n ← draw
  match ← lift (index_result env n) with
  | none => pure none
  | some result =>
    match PyDict.get result "items" with
    | .list rows => do
      let found ← lift (rows.mapM (index_row env.core args))
      pure (some (found.filterMap id))
    | _ => pure (some [])

/-! ## The query -/

def select_retrieval_mode (query_type : String) (high_risk : Bool) : String :=
  if high_risk then "mix"
  else if query_type = "fact" then "local"
  else if query_type = "relation" then "global"
  else if query_type = "risk" then "mix"
  else "hybrid"

def local_candidates (s : Store) (args : RetrievalArgs) : Except PyErr (List Item) :=
  (s.citation_sources.values.filter (fun source => source.tenant_id = args.tenant_id ∧
    source.project_id = args.project_id ∧ source.supplier_id = args.supplier_id ∧
    (args.doc_scope = [] ∨ source.doc_type ∈ args.doc_scope))).mapM fun source => do
      let metadata ← source_metadata source
      pure ⟨.str source.chunk_id, source.score_raw, "matched " ++ args.query_type ++ " intent",
        metadata, none, none⟩

/-- A structured hit replaces the candidates of its id that have a lower
score, or is a new one. -/
def merge_hit (found : Hits) (hit : Item) : Except PyErr Hits := do
  let hid ← hash_key hit.chunk_id
  if hid ∈ found.2 then
    let candidates ← found.1.mapM fun c => do
      let cid ← hash_key c.chunk_id
      pure (if cid = hid ∧ c.score_raw < hit.score_raw then hit else c)
    pure (candidates, found.2)
  else pure (found.1 ++ [hit], found.2 ++ [hid])

def with_structured (env : Env) (s : Store) (suppliers : List Supplier) (args : RetrievalArgs)
    (candidates : List Item) : Except PyErr (List Item) :=
  if args.structured_filters.truthy = false then .ok candidates
  else do
    let validated ← validate_structured_filters args.structured_filters
    if validated = [] then pure candidates
    else do
      let struct_hits ← query_structured env s suppliers args validated
      let existing_ids ← candidates.mapM (fun c => hash_key c.chunk_id)
      let found ← struct_hits.foldlM merge_hit (candidates, existing_ids)
      pure found.1

def contains (text term : String) : Bool := term.toList <:+: text.toList

def terms (env : RetrievalEnv) (words : List String) : List String :=
  (words.filter (fun x => strip x ≠ "")).map env.lower

/-- The text of the source that has the chunk id of an item. -/
def source_text (env : RetrievalEnv) (s : Store) (item : Item) : String :=
  let text := (s.citation_sources.get? (item.chunk_id.toStr env.core.repr)).map
    (fun source => source.text)
  env.lower ((text.getD (.str "")).toStr env.core.repr)

def with_terms (env : RetrievalEnv) (s : Store) (args : RetrievalArgs) (items : List Item) :
    List Item :=
  let included := items.filter (fun x =>
    (terms env args.must_include_terms).all (contains (source_text env s x)))
  included.filter (fun x =>
    (terms env args.must_exclude_terms).all (fun term => !contains (source_text env s x) term))

/-- `_rerank_items`. -/
def rerank (env : RetrievalEnv) (query : String) (items : List Item) : Except PyErr (List Item) :=
  if env.rerankers.force_error then .error (.raised "RuntimeError" "forced rerank error")
  else rerank_items env.rerankers query items

def unranked (items : List Item) : List Item :=
  sorted_by Item.score_raw (items.map (fun item => { item with score_rerank := some none }))

/-- `items[:top_k]`. -/
def up_to (top_k : Int) (items : List Item) : List Item :=
  if 0 ≤ top_k then items.take top_k.toNat else items.take (items.length - (-top_k).toNat)

structure Retrieved where
  query : String
  query_type : String
  selected_mode : String
  index_name : String
  degraded : Bool
  degrade_reason : Option String
  items : List Item
  total : Nat

/-- The items, and the reason why they were not reranked. -/
def ranked_items (env : RetrievalEnv) (args : RetrievalArgs) (items : List Item) :
    List Item × Option String :=
  if args.enable_rerank then
    match rerank env args.query items with
    | .ok items => (items, none)
    | .error _ => (unranked items, some "rerank_failed")
  else (unranked items, some "rerank_disabled")

/-- The rows of the index, or the citation sources when it gave no answer. -/
def found_candidates (s : Store) (args : RetrievalArgs) (answered : Option (List Item)) :
    Except PyErr (List Item) :=
  match answered with
  | some candidates => .ok candidates
  | none => local_candidates s args

def retrieval_query (env : RetrievalEnv) (suppliers : List Supplier) (args : RetrievalArgs) :
    Act Retrieved := do
  let index_name ← retrieval_index_name env.core args.tenant_id args.project_id
  let answered ← query_lightrag env args
  let w ← read
  let candidates ← lift (found_candidates w.store args answered)
  let candidates ← lift (with_structured env.core w.store suppliers args candidates)
  let (ranked, degrade_reason) := ranked_items env args (with_terms env w.store args candidates)
  let items := up_to args.top_k ranked
  pure {
    query := args.query
    query_type := args.query_type
    selected_mode := select_retrieval_mode args.query_type args.high_risk
    index_name := index_name
    degraded := degrade_reason.isSome
    degrade_reason := degrade_reason
    items := items
    total := items.length }

/-! ## The preview -/

structure PreviewItem where
  chunk_id : PyVal
  document_id : Option String
  page : Int
  bbox : PyVal
  text : PyVal

/-- An item as the preview shows it. An id that cannot be hashed raises. -/
def preview_item (s : Store) (item : Item) : Except PyErr PreviewItem := do
  let key ← hash_key item.chunk_id
  let source := match key with
    | .text chunk_id => s.citation_sources.get? chunk_id
    | _ => none
  pure {
    chunk_id := item.chunk_id
    document_id := source.map (fun source => source.document_id)
    page := item.metadata.page
    bbox := item.metadata.bbox
    text := (source.map (fun source => source.text)).getD (.str "") }

structure Preview where
  query : String
  selected_mode : String
  index_name : String
  degraded : Bool
  items : List PreviewItem
  total : Nat

def retrieval_preview (env : RetrievalEnv) (suppliers : List Supplier) (args : RetrievalArgs) :
    Act Preview := do
  let base ← retrieval_query env suppliers args
  let w ← read
  let items ← lift (base.items.mapM (preview_item w.store))
  pure ⟨args.query, base.selected_mode, base.index_name, base.degraded, items, items.length⟩

end bid_evaluation.retrieval
