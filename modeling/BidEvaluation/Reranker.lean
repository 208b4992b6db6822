-- `reranker.py`: a backend gives each retrieved item a score, and the items
-- are sorted by it. A backend that cannot answer falls back to the simple
-- one, but what it answers badly raises.
import BidEvaluation.Values
import Mathlib.Data.List.Sort
import Mathlib.Data.List.Dedup

open dict_lib bid_evaluation.values

namespace bid_evaluation.reranker

/-! ## Items -/

structure Metadata where
  tenant_id : PyVal
  project_id : PyVal
  supplier_id : PyVal
  document_id : PyVal
  doc_type : PyVal
  page : Int
  bbox : PyVal

/-- A candidate of a retrieval. `score_rerank` is the key of that name, if
there is one, whose value may be `None`. -/
structure Item where
  chunk_id : PyVal
  score_raw : Rat
  reason : String
  metadata : Metadata
  text : Option PyVal
  score_rerank : Option (Option Rat)

/-! ## The backends -/

/-- What `sentence_transformers` does: it is not installed, it raises, it
is too slow, or it has the raw scores. -/
inductive CrossEncoderAnswer where
  | missing
  | raises (e : PyErr)
  | timed_out
  | scores (raw_scores : List Rat)

/-- What the rerank API does: no key or no answer, or some JSON. -/
inductive ApiAnswer where
  | unavailable
  | data (data : PyVal)

/-- The settings of the reranker, and the answers of its backends to the
query and the documents. -/
structure Rerankers where
  backend : String
  top_k : Int
  force_error : Bool
  cross_encoder : String → List String → CrossEncoderAnswer
  api : String → String → List String → ApiAnswer
  log : Rat → Rat
  exp : Rat → Rat
  round4 : Rat → Rat
  repr : PyVal → String
  float_of_str : String → Except PyErr Rat

def is_cjk (c : Char) : Bool :=
  let n := c.toNat
  (0x4e00 ≤ n && n ≤ 0x9fff) || (0x3400 ≤ n && n ≤ 0x4dbf) || (0xf900 ≤ n && n ≤ 0xfaff)

/-- The tokens of the characters that are left, after those of a word. -/
def tokens : List Char → List Char → List String
  | word, [] => flush word
  | word, c :: rest =>
    if c.isAlphanum then tokens (c :: word) rest
    else flush word ++ (if is_cjk c then c.toString :: tokens [] rest else tokens [] rest)
where
  flush (word : List Char) : List String :=
    if word = [] then [] else [(String.ofList word.reverse).toLower]

def tokenize (text : String) : List String := tokens [] text.toList

def text_of (env : Rerankers) (item : Item) : String :=
  (item.text.getD (.str "")).toStr env.repr

/-- `sorted(items, key=score, reverse=True)`. -/
def sorted_by (score : Item → Rat) (items : List Item) : List Item :=
  items.insertionSort (fun x y => score y ≤ score x)

def ranked (env : Rerankers) (item : Item) (score : Rat) : Item :=
  { item with score_rerank := some (some (env.round4 score)) }

/-- `float(x.get("score_rerank", 0))` of a ranked item. -/
def rank_of (item : Item) : Rat := (item.score_rerank.getD none).getD 0

def tfidf_score (env : Rerankers) (query_tokens : List String) (docs : List (List String))
    (doc_tokens : List String) : Rat :=
  let idf (df : Nat) : Rat := env.log ((docs.length + 1) / (df + 1)) + 1
  if doc_tokens = [] then 0
  else
    let score_sum := ((query_tokens.dedup.filter (· ∈ doc_tokens)).map (fun term =>
      (query_tokens.count term : Rat) * (doc_tokens.count term / doc_tokens.length) *
        idf (docs.filter (term ∈ ·)).length)).sum
    let max_possible := (query_tokens.dedup.map (fun term =>
      (query_tokens.count term : Rat) * idf 1)).sum
    if 0 < max_possible then score_sum / max_possible else 0

def rerank_simple (env : Rerankers) (query : String) (items : List Item) : List Item :=
  let query_tokens := tokenize query
  if query_tokens = [] then
    sorted_by rank_of (items.map (fun item => ranked env item item.score_raw))
  else
    let docs := items.map (fun item => tokenize (text_of env item))
    sorted_by rank_of (items.map (fun item =>
      let tfidf := tfidf_score env query_tokens docs (tokenize (text_of env item))
      ranked env item (min 1 (4 / 10 * tfidf + 6 / 10 * item.score_raw))))

def sigmoid (env : Rerankers) (x : Rat) : Rat :=
  if 0 ≤ x then 1 / (1 + env.exp (-x)) else env.exp x / (1 + env.exp x)

def rerank_cross_encoder (env : Rerankers) (query : String) (items : List Item) :
    Except PyErr (List Item) :=
  match env.cross_encoder query (items.map (text_of env)) with
  | .missing => .ok (rerank_simple env query items)
  | .raises e => .error e
  | .timed_out => .ok (rerank_simple env query items)
  | .scores raw_scores =>
    .ok (sorted_by rank_of ((items.zip raw_scores).map
      (fun (item, raw) => ranked env item (sigmoid env raw))))

def type_error (text : String) : PyErr := .raised "TypeError" text

/-- The values that `for x in value` goes through. -/
def iter : PyVal → Except PyErr (List PyVal)
  | .list items => .ok items
  | .dict entries => .ok (entries.map (fun e => .str e.1))
  | .str s => .ok (s.toList.map (fun c => .str c.toString))
  | _ => .error (type_error "object is not iterable")

/-- `value[key]` for a string key. -/
def subscript (value : PyVal) (key : String) : Except PyErr PyVal :=
  match value with
  | .dict d =>
    match lookupEntry d key with
    | some x => .ok x
    | none => .error (.raised "KeyError" key)
  | _ => .error (type_error "indices must be integers")

/-- The scores of an API answer, by the index of the item. -/
def score_map (env : Rerankers) (data : PyVal) : Except PyErr (List (Int × Rat)) :=
  match data with
  | .dict d => do
    let results ← iter (PyDict.getD d "results" (.list []))
    results.foldlM (fun scores result => do
      let idx ← (← subscript result "index").toInt
      let score ← (← subscript result "relevance_score").toFloat env.float_of_str
      pure (setEntry scores idx score)) []
  | _ => .error (.raised "AttributeError" "object has no attribute 'get'")

def rerank_api (env : Rerankers) (query : String) (items : List Item) (backend : String) :
    Except PyErr (List Item) :=
  match env.api backend query (items.map (text_of env)) with
  | .unavailable => .ok (rerank_simple env query items)
  | .data data => do
    let scores ← score_map env data
    pure (sorted_by rank_of (items.zipIdx.map
      (fun (item, i) => ranked env item ((lookupEntry scores (i : Int)).getD 0))))

def rerank_by_backend (env : Rerankers) (query : String) (items : List Item) :
    Except PyErr (List Item) :=
  if env.backend = "cross-encoder" then rerank_cross_encoder env query items
  else if env.backend = "cohere" ∨ env.backend = "jina" then
    rerank_api env query items env.backend
  else .ok (rerank_simple env query items)

def rerank_items (env : Rerankers) (query : String) (items : List Item) :
    Except PyErr (List Item) :=
  if items = [] then .ok []
  else do
    let result ← rerank_by_backend env query items
    pure (if 0 < env.top_k then result.take env.top_k.toNat else result)

end bid_evaluation.reranker
