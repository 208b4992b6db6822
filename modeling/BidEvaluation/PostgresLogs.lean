-- The audit log and the workflow checkpoints of `PostgresBackedStore`: the
-- collections in memory, and the two tables. An append writes both. A read
-- takes the rows of the table, and puts them over the collection in memory.
import BidEvaluation.AuditLogs
import BidEvaluation.Lib.Lockstep
import Mathlib.Data.List.Sort

open dict_lib lockstep bid_evaluation.values bid_evaluation.audit_logs
open bid_evaluation.core (Env)

namespace bid_evaluation.postgres_logs

structure Memory where
  audit_logs : List PyDict
  workflow_checkpoints : Dict String (List PyDict)

def Memory.empty : Memory := ⟨[], Dict.empty⟩

/-- A row of `audit_logs`. The column `evaluation_id` can be null. -/
structure AuditRow where
  audit_id : String
  tenant_id : String
  evaluation_id : Option String
  occurred_at : String
  payload : PyDict

structure CheckpointRow where
  checkpoint_id : String
  tenant_id : String
  thread_id : String
  seq : Int
  payload : PyDict

structure State where
  memory : Memory
  audit_rows : Table AuditRow.audit_id
  checkpoint_rows : Table CheckpointRow.checkpoint_id
  store_state : Option Memory

/-- The collections of the snapshot row, when there is one. -/
def init (store_state : Option Memory) : Memory := store_state.getD Memory.empty

def text? : PyVal → Option String
  | .str s => some s
  | _ => none

variable (env : Env) (sha256 : String → String)

/-- `str(item.get("tenant_id") or "tenant_default")`. -/
def tenant_of (item : PyDict) : String :=
  ((item.get "tenant_id").or (.str "tenant_default")).toStr env.repr

/-- `int(item.get("seq", 0))`. Every `seq` that is stored is a number. -/
def seq_of (item : PyDict) : Int :=
  match (item.getD "seq" (.int 0)).toInt with
  | .ok n => n
  | .error _ => 0

/-! ## Audit log -/

def audit_row (item : PyDict) : AuditRow where
  audit_id := (item.get "audit_id").toStr env.repr
  tenant_id := tenant_of env item
  evaluation_id := text? (item.get "evaluation_id")
  occurred_at := (item.get "occurred_at").toStr env.repr
  payload := item

/-- `hex` and `now` are the draw and the clock of the append. -/
def append_audit_log (s : State) (hex now : String) (log : PyDict) : State :=
  let audit_logs := audit_logs.append_audit_log env sha256 s.memory.audit_logs hex now log
  match audit_logs.getLast? with
  | none => s
  | some saved =>
    { s with
      memory := { s.memory with audit_logs := audit_logs }
      audit_rows := s.audit_rows.put (audit_row env saved) }

/-- `SELECT payload ... ORDER BY occurred_at ASC`. Equal times keep the order
of the table. -/
def rows_for_evaluation (audit_rows : Table AuditRow.audit_id) (tenant_id evaluation_id : String) :
    List PyDict :=
  let rows := audit_rows.values.filter fun row =>
    row.tenant_id = tenant_id ∧ row.evaluation_id = some evaluation_id
  (rows.insertionSort fun a b => a.occurred_at ≤ b.occurred_at).map AuditRow.payload

def list_audit_logs_for_evaluation (s : State) (evaluation_id tenant_id : String) :
    State × List PyDict :=
  let loaded := rows_for_evaluation s.audit_rows tenant_id evaluation_id
  ({ s with memory := { s.memory with audit_logs := loaded } }, loaded)

/-! ## Checkpoints -/

def thread_rows (memory : Memory) (thread_id : String) : List PyDict :=
  (memory.workflow_checkpoints.get? thread_id).getD []

def put_thread (memory : Memory) (thread_id : String) (rows : List PyDict) : Memory :=
  { memory with workflow_checkpoints := memory.workflow_checkpoints.set thread_id rows }

structure CheckpointArgs where
  thread_id : String
  job_id : String
  tenant_id : String
  node : String
  status : String
  payload : PyDict

def checkpoint_row (item : PyDict) : CheckpointRow where
  checkpoint_id := (item.get "checkpoint_id").toStr env.repr
  tenant_id := tenant_of env item
  thread_id := (item.get "thread_id").toStr env.repr
  seq := seq_of item
  payload := item

/-- The number that the next checkpoint of a thread gets. -/
def next_seq (memory : Memory) (thread_id : String) : Int :=
  (thread_rows memory thread_id).length + 1

def append_workflow_checkpoint (s : State) (hex now : String) (args : CheckpointArgs) : State :=
  let checkpoint : PyDict :=
    [("checkpoint_id", .str ("cp_" ++ hex)), ("thread_id", .str args.thread_id),
      ("job_id", .str args.job_id), ("seq", .int (next_seq s.memory args.thread_id)),
      ("node", .str args.node), ("status", .str args.status), ("payload", .dict args.payload),
      ("tenant_id", .str args.tenant_id), ("created_at", .str now)]
  { s with
    memory := put_thread s.memory args.thread_id
      (thread_rows s.memory args.thread_id ++ [checkpoint])
    checkpoint_rows := s.checkpoint_rows.put (checkpoint_row env checkpoint) }

/-- `max(1, min(limit, 1000))`. -/
def row_limit (limit : Int) : Nat := (max 1 (min limit 1000)).toNat

/-- The rows of a tenant as the repository in memory lists them. -/
def in_memory_list (memory : Memory) (thread_id tenant_id : String) (limit : Int) : List PyDict :=
  let rows := (thread_rows memory thread_id).filter fun item =>
    text? (item.get "tenant_id") = some tenant_id
  (rows.insertionSort fun a b => seq_of a ≤ seq_of b).take (row_limit limit)

/-- `SELECT payload ... ORDER BY seq ASC LIMIT`. -/
def rows_for_thread (checkpoint_rows : Table CheckpointRow.checkpoint_id)
    (thread_id tenant_id : String) (limit : Int) : List PyDict :=
  let rows := checkpoint_rows.values.filter fun row =>
    row.tenant_id = tenant_id ∧ row.thread_id = thread_id
  ((rows.insertionSort fun a b => a.seq ≤ b.seq).take (row_limit limit)).map CheckpointRow.payload

def is_langgraph (item : PyDict) : Bool := text? (item.get "kind") = some "langgraph_state"

def list_workflow_checkpoints (s : State) (thread_id tenant_id : String) (limit : Int) :
    State × List PyDict :=
  let loaded := rows_for_thread s.checkpoint_rows thread_id tenant_id limit
  if loaded ≠ [] then ({ s with memory := put_thread s.memory thread_id loaded }, loaded)
  else (s, (in_memory_list s.memory thread_id tenant_id limit).filter fun item => !is_langgraph item)

/-! ## Checkpoints of LangGraph -/

def next_workflow_seq (memory : Memory) (thread_id tenant_id : String) : Int :=
  match (in_memory_list memory thread_id tenant_id 1000).map seq_of with
  | [] => 1
  | first :: rest => rest.foldl max first + 1

/-- The record of LangGraph with this id, if the thread has one. -/
def langgraph_record (memory : Memory) (thread_id tenant_id checkpoint_id checkpoint_ns : String) :
    Option PyDict :=
  let items := (in_memory_list memory thread_id tenant_id 1000).filter fun item =>
    is_langgraph item ∧ (item.getD "checkpoint_ns" (.str "")).toStr env.repr = checkpoint_ns
  (items.insertionSort fun a b => seq_of b ≤ seq_of a).find? fun item =>
    text? (item.get "langgraph_checkpoint_id") = some checkpoint_id

/-- The record goes to the memory only. A record without a thread or an id
raises before it is stored. -/
def upsert_langgraph_checkpoint (s : State) (record : PyDict) : State :=
  let thread_id := ((record.get "thread_id").or (.str "")).toStr env.repr
  let checkpoint_id := ((record.get "checkpoint_id").or (.str "")).toStr env.repr
  let tenant_id := tenant_of env record
  if thread_id = "" ∨ checkpoint_id = "" then s
  else
    let checkpoint_ns := (record.getD "checkpoint_ns" (.str "")).toStr env.repr
    let seq :=
      match langgraph_record env s.memory thread_id tenant_id checkpoint_id checkpoint_ns with
      | some existing => seq_of existing
      | none => next_workflow_seq s.memory thread_id tenant_id
    let payload := (((record.set "kind" (.str "langgraph_state")).set "seq" (.int seq)).set
      "langgraph_checkpoint_id" (.str checkpoint_id)).set
        "parent_langgraph_checkpoint_id" (record.get "parent_checkpoint_id")
    let payload := payload.set "checkpoint_id" (.str ("lgcp_" ++ checkpoint_id))
    { s with memory := put_thread s.memory thread_id (thread_rows s.memory thread_id ++ [payload]) }

def delete_langgraph_checkpoints (s : State) (thread_id : String) : State :=
  match s.memory.workflow_checkpoints.get? thread_id with
  | none => s
  | some rows =>
    { s with memory := put_thread s.memory thread_id (rows.filter fun item => !is_langgraph item) }

/-! ## Runs -/

inductive Move where
  | append_audit_log (hex now : String) (log : PyDict)
  | append_workflow_checkpoint (hex now : String) (args : CheckpointArgs)
  | upsert_langgraph_checkpoint (record : PyDict)
  | delete_langgraph_checkpoints (thread_id : String)
  | list_audit_logs_for_evaluation (evaluation_id tenant_id : String)
  | list_workflow_checkpoints (thread_id tenant_id : String) (limit : Int)
  | save
  | restart

/-- The store on a database that has anything. A read shows its rows. -/
def machine (start : State) : Machine State Move (List PyDict) where
  start := { start with memory := init start.store_state }
  step s
    | .append_audit_log hex now log => (append_audit_log env sha256 s hex now log, [])
    | .append_workflow_checkpoint hex now args => (append_workflow_checkpoint env s hex now args, [])
    | .upsert_langgraph_checkpoint record => (upsert_langgraph_checkpoint env s record, [])
    | .delete_langgraph_checkpoints thread_id => (delete_langgraph_checkpoints s thread_id, [])
    | .list_audit_logs_for_evaluation evaluation_id tenant_id =>
      list_audit_logs_for_evaluation s evaluation_id tenant_id
    | .list_workflow_checkpoints thread_id tenant_id limit =>
      list_workflow_checkpoints s thread_id tenant_id limit
    | .save => ({ s with store_state := some s.memory }, [])
    | .restart => ({ s with memory := init s.store_state }, [])

end bid_evaluation.postgres_logs
