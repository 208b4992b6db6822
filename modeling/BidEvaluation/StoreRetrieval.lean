-- `store_retrieval.py`: citation sources, the agreement of retrieval
-- scores, and the write of chunks to the index.
import BidEvaluation.StoreAdmin

open dict_lib stepwise bid_evaluation.values bid_evaluation.core

namespace bid_evaluation.store_retrieval

/-! ## Citations -/

def register_citation_source (env : Env) (chunk_id : String) (source : CitationSource) :
    Act Unit :=
  saving env
    (update (fun s => { s with citation_sources := s.citation_sources.set chunk_id source }))

def resolve_citation (s : Store) (include_quote : Bool) (chunk_id : String) : Citation :=
  match s.citation_sources.get? chunk_id with
  | none => ⟨chunk_id, .none, .none, if include_quote then some .none else none⟩
  | some source =>
    ⟨chunk_id, source.page, source.bbox, if include_quote then some source.text else none⟩

def resolve_citations_batch (s : Store) (chunk_ids : List String) (include_quote : Bool) :
    List Citation :=
  chunk_ids.map (resolve_citation s include_quote)

def mean (xs : List Rat) : Rat := xs.sum / xs.length

def variance (xs : List Rat) : Rat := (xs.map (fun x => (x - mean xs) ^ 2)).sum / xs.length

/-- One minus the coefficient of variation of the scores, cut to [0, 1]. -/
def calculate_retrieval_agreement (env : Env) (s : Store) (chunk_ids : List String) : Rat :=
  let scores := chunk_ids.filterMap
    (fun cid => (s.citation_sources.get? cid).map (fun source => source.score_raw))
  if chunk_ids = [] then 0
  else if scores = [] then 1 / 2
  else if scores.length = 1 then 1
  else if mean scores = 0 then 1 / 2
  else max 0 (min 1 (1 - env.sqrt (variance scores) / mean scores))

/-! ## The index -/

/-- A character of `[a-zA-Z0-9_\-]`. -/
def is_safe_char (c : Char) : Bool := c.isAlphanum || c = '_' || c = '-'

/-- `_SAFE_ID_RE.match`. The `$` also matches before a newline at the end. -/
def is_safe_id (value : String) : Bool :=
  let body := match value.toList.getLast? with
    | some '\n' => value.toList.dropLast
    | _ => value.toList
  body ≠ [] && body.all is_safe_char

def validate_index_segment (value field_name : String) : Act Unit :=
  if is_safe_id value then pure ()
  else
    raise_api "REQ_VALIDATION_FAILED"
      ("Invalid " ++ field_name ++ " for index name: must match [a-zA-Z0-9_-]+") "client" false 400

def retrieval_index_name (env : Env) (tenant_id project_id : String) : Act String := do
  validate_index_segment tenant_id "tenant_id"
  validate_index_segment project_id "project_id"
  pure (env.index_prefix ++ "_" ++ tenant_id ++ "_" ++ project_id)

def count_index_write (s : Store) : Store :=
  let m := s.parser_retrieval_metrics
  { s with parser_retrieval_metrics :=
    { m with parse_index_write_total := m.parse_index_write_total + 1 } }

def count_index_fail (s : Store) : Store :=
  let m := s.parser_retrieval_metrics
  { s with parser_retrieval_metrics :=
    { m with parse_index_fail_total := m.parse_index_fail_total + 1 } }

/-- What the index service got, and if it failed. -/
def log_index_write (document_id : String) (chunks : List PyDict) (failed : Bool) : Act Unit :=
  write (fun w => { w with index_log := w.index_log ++ [⟨document_id, chunks, failed⟩] })

/-- A failure of the service is counted and then swallowed. A bad segment
of the index name raises. -/
def maybe_index_chunks_to_lightrag (env : Env) (tenant_id project_id document_id : String)
    (chunks : List PyDict) : Act Unit :=
  if chunks = [] then pure ()
  else do
    let _ ← retrieval_index_name env tenant_id project_id
    update count_index_write
    let n ← draw
    match env.index_answer n with
    | .written => log_index_write document_id chunks false
    | .swallowed_failure => do
      log_index_write document_id chunks true
      update count_index_fail
    | .raises e => do
      log_index_write document_id chunks true
      raise e

end bid_evaluation.store_retrieval
