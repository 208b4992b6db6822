-- `ops/backend_consistency.py`: the states that two backends have saved are
-- compared section by section, each by its JSON text.
import BidEvaluation.JsonDumps

open dict_lib bid_evaluation.values bid_evaluation.routes bid_evaluation.snapshots
open bid_evaluation.core (Env)

namespace bid_evaluation.backend_consistency

/-! ## The report -/

/-- The row of a section. -/
structure SectionRow where
  key : String
  is_matched : Bool
  sqlite_count : Nat
  postgres_count : Nat
  sqlite_hash : String
  postgres_hash : String

structure ComparisonReport where
  all_matched : Bool
  mismatch_sections : List String
  rows : List SectionRow

def default_sections : List String :=
  ["jobs", "documents", "document_chunks", "projects", "suppliers", "rule_packs",
    "evaluation_reports", "parse_manifests", "workflow_checkpoints", "dlq_items", "audit_logs",
    "domain_events_outbox", "outbox_delivery_records"]

/-- An empty list of sections is as good as none. -/
def sections_or_default : Option (List String) → List String
  | none => default_sections
  | some [] => default_sections
  | some sections => sections

def canonical_hash (env : Env) (value : PyVal) : String := dumps env value

def size_of : PyVal → Nat
  | .dict entries => entries.length
  | .list items => items.length
  | .none => 0
  | _ => 1

variable (env : Env) (sqlite_payload postgres_payload : PyDict)

def compare_section (key : String) : SectionRow :=
  let left := sqlite_payload.get key
  let right := postgres_payload.get key
  let left_hash := canonical_hash env left
  let right_hash := canonical_hash env right
  { key := key
    is_matched := left_hash = right_hash
    sqlite_count := size_of left
    postgres_count := size_of right
    sqlite_hash := left_hash
    postgres_hash := right_hash }

/-- One turn of the loop. -/
def add_section (report : List String × List SectionRow) (key : String) :
    List String × List SectionRow :=
  let row := compare_section env sqlite_payload postgres_payload key
  if row.is_matched then (report.1, report.2 ++ [row])
  else (report.1 ++ [key], report.2 ++ [row])

def compare_store_payloads (sections : Option (List String)) : ComparisonReport :=
  let (mismatch, rows) := (sections_or_default sections).foldl
    (add_section env sqlite_payload postgres_payload) ([], [])
  { all_matched := mismatch.length = 0, mismatch_sections := mismatch, rows := rows }

/-! ## What a backend has saved -/

/-- `load_sqlite_store_payload` and `load_postgres_store_payload`: the one row
of the table, if there is one. -/
def load_store_payload (saved : Option PyDict) : PyDict :=
  match saved with
  | none => []
  | some payload => json_round_trip payload

/-- `scripts/compare_store_backends.py`, for two stores that have saved. -/
def compare_stores (sqlite postgres : Store) : ComparisonReport :=
  compare_store_payloads env (load_store_payload (some (state_snapshot sqlite)))
    (load_store_payload (some (state_snapshot postgres))) none

end bid_evaluation.backend_consistency
