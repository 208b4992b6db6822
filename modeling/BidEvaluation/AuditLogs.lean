-- The audit log of `store.py`: `_compute_audit_hash`, `_append_audit_log`
-- and `verify_audit_integrity`. A row is the dictionary that is stored, and
-- `sha256` stands for the hex digest of a text.
import BidEvaluation.Routes

open dict_lib bid_evaluation.values bid_evaluation.routes
open bid_evaluation.core (Env)

namespace bid_evaluation.audit_logs

variable (env : Env) (sha256 : String → String)

/-! ## Append -/

/-- `str(row.get(key) or "")`. -/
def read_text (row : PyDict) (key : String) : String :=
  ((row.get key).or (.str "")).toStr env.repr

/-- What the hash of a row covers. -/
def audit_material (log : PyDict) (prev_hash : String) : PyDict :=
  PyDict.set (log.filter (fun e => e.1 ≠ "audit_hash" ∧ e.1 ≠ "prev_hash")) "prev_hash"
    (.str prev_hash)

def compute_audit_hash (log : PyDict) (prev_hash : String) : String :=
  sha256 (dumps env (.dict (audit_material log prev_hash)))

def default_field (log : PyDict) (key value : String) : PyDict :=
  if (log.get key).truthy then log else log.set key (.str value)

/-- The hash that a new row has to name. -/
def last_hash (audit_logs : List PyDict) : String :=
  match audit_logs.getLast? with
  | none => ""
  | some last => read_text env last "audit_hash"

/-- `hex` and `now` are the draw of `uuid.uuid4().hex[:12]` and the clock. -/
def append_audit_log (audit_logs : List PyDict) (hex now : String) (log : PyDict) :
    List PyDict :=
  let entry := default_field log "audit_id" ("audit_" ++ hex)
  let entry := default_field entry "occurred_at" now
  let prev_hash := last_hash env audit_logs
  let entry := entry.set "prev_hash" (.str prev_hash)
  audit_logs ++ [entry.set "audit_hash" (.str (compute_audit_hash env sha256 entry prev_hash))]

structure Append where
  hex : String
  now : String
  log : PyDict

/-- The log after these appends. -/
def logged (appends : List Append) : List PyDict :=
  appends.foldl (fun audit_logs a => append_audit_log env sha256 audit_logs a.hex a.now a.log) []

/-! ## Verify -/

inductive Integrity where
  | valid (checked_count : Nat) (last_hash : String)
  | broken (checked_count : Nat) (reason : String) (audit_id : PyVal)

def Integrity.isValid : Integrity → Bool
  | .valid _ _ => true
  | .broken _ _ _ => false

/-- The loop of `verify_audit_integrity`, with `idx` rows behind it. -/
def verify_rows : Nat → String → List PyDict → Integrity
  | idx, prev_hash, [] => .valid idx prev_hash
  | idx, prev_hash, row :: rest =>
    let stored_prev := read_text env row "prev_hash"
    if stored_prev ≠ prev_hash then .broken (idx + 1) "prev_hash_mismatch" (row.get "audit_id")
    else
      let actual := read_text env row "audit_hash"
      if actual ≠ compute_audit_hash env sha256 row stored_prev then
        .broken (idx + 1) "audit_hash_mismatch" (row.get "audit_id")
      else verify_rows (idx + 1) actual rest

/-- The rows that are verified: all, or those of one tenant. -/
def rows_of (audit_logs : List PyDict) : Option String → List PyDict
  | none => audit_logs
  | some tenant_id =>
    if tenant_id = "" then audit_logs
    else audit_logs.filter (fun row => read_text env row "tenant_id" = tenant_id)

def verify_audit_integrity (audit_logs : List PyDict) (tenant_id : Option String) : Integrity :=
  verify_rows env sha256 0 "" (rows_of env audit_logs tenant_id)

end bid_evaluation.audit_logs
