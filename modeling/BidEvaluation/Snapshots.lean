-- `_state_snapshot` and `_restore_state` of the persistent stores. The
-- collections are objects that the store and its repositories share, so the
-- store names each of them by the place of the object.
import BidEvaluation.AuditLaws
import BidEvaluation.Lib.Once

open dict_lib once_lib bid_evaluation.values
open bid_evaluation.audit_laws (canon)

namespace bid_evaluation.snapshots

/-- The collections that are dictionaries. -/
inductive Collection where
  | jobs
  | documents
  | document_chunks
  | projects
  | suppliers
  | rule_packs
  | evaluation_reports
  | parse_manifests
  | resume_tokens
  | domain_events_outbox
  | outbox_delivery_records
  | workflow_checkpoints
  | citation_sources
  | dlq_items
  | legal_hold_objects
  | release_rollout_policies
  | release_replay_runs
  | release_readiness_assessments
  | counterexample_samples
  | gold_candidate_samples
deriving DecidableEq

namespace Collection

def name : Collection → String
  | jobs => "jobs"
  | documents => "documents"
  | document_chunks => "document_chunks"
  | projects => "projects"
  | suppliers => "suppliers"
  | rule_packs => "rule_packs"
  | evaluation_reports => "evaluation_reports"
  | parse_manifests => "parse_manifests"
  | resume_tokens => "resume_tokens"
  | domain_events_outbox => "domain_events_outbox"
  | outbox_delivery_records => "outbox_delivery_records"
  | workflow_checkpoints => "workflow_checkpoints"
  | citation_sources => "citation_sources"
  | dlq_items => "dlq_items"
  | legal_hold_objects => "legal_hold_objects"
  | release_rollout_policies => "release_rollout_policies"
  | release_replay_runs => "release_replay_runs"
  | release_readiness_assessments => "release_readiness_assessments"
  | counterexample_samples => "counterexample_samples"
  | gold_candidate_samples => "gold_candidate_samples"

def all : List Collection :=
  [jobs, documents, document_chunks, projects, suppliers, rule_packs, evaluation_reports,
    parse_manifests, resume_tokens, domain_events_outbox, outbox_delivery_records,
    workflow_checkpoints, citation_sources, dlq_items, legal_hold_objects,
    release_rollout_policies, release_replay_runs, release_readiness_assessments,
    counterexample_samples, gold_candidate_samples]

theorem mem_all (c : Collection) : c ∈ all := by cases c <;> decide

end Collection

/-- The collections that a repository works on. -/
def bound : List Collection :=
  [.jobs, .documents, .document_chunks, .parse_manifests, .projects, .suppliers, .rule_packs,
    .evaluation_reports, .dlq_items, .workflow_checkpoints]

/-! ## The store -/

/-- Every object was made in some generation: at the start of a store, or when
a snapshot was restored. -/
structure Objects where
  dicts : Nat → Collection → PyDict
  lists : Nat → List PyVal

/-- A metric is a counter. `collection` and `repository` say which object the
attribute of the store and the repository hold. -/
structure Store where
  objects : Objects
  generation : Nat
  collection : Collection → Nat
  repository : Collection → Nat
  audit_logs : Nat
  audit_repository : Nat
  idempotency_records : Dict (String × String) (Record String PyDict)
  dataset_version : String
  strategy_version_counter : Nat
  strategy_config : PyDict
  parser_retrieval_metrics : Dict String Int

def Store.get (s : Store) (c : Collection) : PyDict := s.objects.dicts (s.collection c) c

def Store.get_audit_logs (s : Store) : List PyVal := s.objects.lists s.audit_logs

/-- `_bind_repositories`. -/
def Store.bind_repositories (s : Store) : Store :=
  { s with repository := s.collection, audit_repository := s.audit_logs }

/-- The counters that `__init__` makes. -/
def metric_names : List String :=
  ["parse_runs_total", "parse_fallback_used_total", "parse_index_write_total",
    "parse_index_fail_total", "retrieval_queries_total", "retrieval_lightrag_calls_total",
    "retrieval_lightrag_fail_total", "rerank_degraded_total"]

def zero_metrics : Dict String Int := ⟨metric_names.map fun name => (name, 0), by decide⟩

def initial_strategy_config : PyDict :=
  [("selector", .dict [("risk_mix_threshold", .float (7 / 10)), ("relation_mode", .str "global")]),
    ("score_calibration", .dict [("confidence_scale", .float 1), ("score_bias", .float 0)]),
    ("tool_policy", .dict [("require_double_approval_actions", .list [.str "dlq_discard"]),
      ("allowed_tools", .list [.str "retrieval", .str "evaluation", .str "dlq"])])]

/-- `__init__`. -/
def fresh : Store :=
  Store.bind_repositories {
    objects := ⟨fun _ _ => [], fun _ => []⟩
    generation := 0
    collection := fun _ => 0
    repository := fun _ => 0
    audit_logs := 0
    audit_repository := 0
    idempotency_records := Dict.empty
    dataset_version := "v1.0.0"
    strategy_version_counter := 0
    strategy_config := initial_strategy_config
    parser_retrieval_metrics := zero_metrics }

/-! ## Writes -/

/-- The repository of a collection leaves its object with this contents. -/
def Store.write (s : Store) (c : Collection) (dict : PyDict) : Store :=
  let dicts (generation : Nat) (other : Collection) : PyDict :=
    if generation = s.repository c ∧ other = c then dict else s.objects.dicts generation other
  { s with objects := { s.objects with dicts := dicts } }

def Store.write_audit_logs (s : Store) (rows : List PyVal) : Store :=
  let lists (generation : Nat) : List PyVal :=
    if generation = s.audit_repository then rows else s.objects.lists generation
  { s with objects := { s.objects with lists := lists } }

/-- `retrieval_cross_tenant_drops_total` is made when the first row of another
tenant is dropped. -/
def Store.count_cross_tenant_drops (s : Store) (dropped : Nat) : Store :=
  let metrics := s.parser_retrieval_metrics
  let total := (metrics.get? "retrieval_cross_tenant_drops_total").getD 0 + dropped
  if dropped > 0 then
    { s with parser_retrieval_metrics := metrics.set "retrieval_cross_tenant_drops_total" total }
  else s

/-! ## Snapshot -/

def record_entry (entry : (String × String) × Record String PyDict) : PyVal :=
  .dict [("scope", .str entry.1.1), ("key", .str entry.1.2),
    ("fingerprint", .str entry.2.fingerprint), ("data", .dict entry.2.data)]

/-- `_state_snapshot`. -/
def state_snapshot (s : Store) : PyDict :=
  [("schema_version", .int 1),
    ("idempotency_records", .list (s.idempotency_records.entries.map record_entry)),
    ("audit_logs", .list s.get_audit_logs),
    ("dataset_version", .str s.dataset_version),
    ("strategy_version_counter", .int s.strategy_version_counter),
    ("strategy_config", .dict s.strategy_config),
    ("parser_retrieval_metrics", .dict (s.parser_retrieval_metrics.entries.map fun metric =>
      (metric.1, .int metric.2)))] ++
    Collection.all.map fun c => (c.name, .dict (s.get c))

/-- `json.loads(json.dumps(payload, sort_keys=True))`: the keys get sorted. -/
def json_round_trip (payload : PyDict) : PyDict :=
  match canon (.dict payload) with
  | .dict entries => entries
  | _ => []

/-! ## Restore -/

/-- A dictionary, or else an empty one. -/
def dict_or_empty : PyVal → PyDict
  | .dict entries => entries
  | _ => []

def list_or_empty : PyVal → List PyVal
  | .list items => items
  | _ => []

/-- A row that is not well formed is skipped. -/
def restore_record (records : Dict (String × String) (Record String PyDict)) :
    PyVal → Dict (String × String) (Record String PyDict)
  | .dict entries =>
    let row : PyDict := entries
    match row.get "scope", row.get "key", row.get "fingerprint", row.get "data" with
    | .str scope, .str key, .str fingerprint, .dict data =>
      records.set (scope, key) ⟨fingerprint, data⟩
    | _, _, _, _ => records
  | _ => records

/-- `int(value)` when `str(value).isdigit()`, else 0. A bool and a float have
no text of digits only. -/
def counter_of : PyVal → Nat
  | .int n => n.toNat
  | .str s => if s ≠ "" ∧ s.toList.all Char.isDigit then s.toNat?.getD 0 else 0
  | _ => 0

/-- `isinstance(value, int)`, which holds of a bool too. -/
def int? : PyVal → Option Int
  | .int n => some n
  | .bool b => some (if b then 1 else 0)
  | _ => none

/-- Only a counter that is there already takes a value. -/
def merge_metric (merged : Dict String Int) (metric : String × PyVal) : Dict String Int :=
  match merged.get? metric.1, int? metric.2 with
  | some _, some n => merged.set metric.1 n
  | _, _ => merged

/-- `_restore_state`. Its objects are of a new generation. -/
def restore_state (payload : PyDict) (s : Store) : Store :=
  let next := s.generation + 1
  Store.bind_repositories { s with
    objects :=
      { dicts := fun generation c =>
          if generation = next then dict_or_empty (payload.get c.name)
          else s.objects.dicts generation c
        lists := fun generation =>
          if generation = next then list_or_empty (payload.get "audit_logs")
          else s.objects.lists generation }
    generation := next
    collection := fun _ => next
    audit_logs := next
    idempotency_records :=
      (list_or_empty (payload.get "idempotency_records")).foldl restore_record Dict.empty
    dataset_version :=
      match payload.getD "dataset_version" (.str "v1.0.0") with
      | .str text => text
      | _ => "v1.0.0"
    strategy_version_counter := counter_of (payload.getD "strategy_version_counter" (.int 0))
    strategy_config :=
      match payload.get "strategy_config" with
      | .dict entries => entries
      | _ => s.strategy_config
    parser_retrieval_metrics :=
      match payload.get "parser_retrieval_metrics" with
      | .dict entries => entries.foldl merge_metric s.parser_retrieval_metrics
      | _ => s.parser_retrieval_metrics }

/-! ## Runs -/

/-- What changes a store: a write to a collection or to the audit log, a count,
a new table of records, a new version of the dataset or of the strategy, and a
restart on a snapshot that was saved. -/
inductive Move where
  | write (c : Collection) (dict : PyDict)
  | write_audit_logs (rows : List PyVal)
  | count (metric : {name // name ∈ metric_names}) (n : Int)
  | count_cross_tenant_drops (dropped : Nat)
  | write_records (records : Dict (String × String) (Record String PyDict))
  | set_dataset_version (version : String)
  | tune_strategy (strategy_config : PyDict)
  | restart (saved : Option PyDict)

def Store.count (s : Store) (name : String) (n : Int) : Store :=
  let metrics := s.parser_retrieval_metrics
  { s with parser_retrieval_metrics := metrics.set name ((metrics.get? name).getD 0 + n) }

def Store.move (s : Store) : Move → Store
  | .write c dict => s.write c dict
  | .write_audit_logs rows => s.write_audit_logs rows
  | .count metric n => s.count metric n
  | .count_cross_tenant_drops dropped => s.count_cross_tenant_drops dropped
  | .write_records records => { s with idempotency_records := records }
  | .set_dataset_version version => { s with dataset_version := version }
  | .tune_strategy strategy_config =>
    { s with
      strategy_config := strategy_config
      strategy_version_counter := s.strategy_version_counter + 1 }
  | .restart none => fresh
  | .restart (some payload) => restore_state (json_round_trip payload) fresh

def after (moves : List Move) : Store := moves.foldl Store.move fresh

end bid_evaluation.snapshots
