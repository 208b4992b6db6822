-- The checkpoints of a thread in memory: the rows that the workflow appends,
-- the records of LangGraph, which are upserted into the same threads, and the
-- checkpoint saver that reads and writes these records.
import BidEvaluation.PostgresLogs

open dict_lib bid_evaluation.values bid_evaluation.postgres_logs
open bid_evaluation.core (Env)

namespace bid_evaluation.checkpoint_store

variable (env : Env)

/-! ## The store -/

/-- `InMemoryWorkflowCheckpointsRepository.append`. -/
def append (memory : Memory) (checkpoint : PyDict) : Memory × PyDict :=
  let thread_id := (checkpoint.get "thread_id").toStr env.repr
  (put_thread memory thread_id (thread_rows memory thread_id ++ [checkpoint]), checkpoint)

/-- The row that `append_workflow_checkpoint` makes. -/
def workflow_checkpoint (memory : Memory) (hex now : String) (args : CheckpointArgs) : PyDict :=
  [("checkpoint_id", .str ("cp_" ++ hex)), ("thread_id", .str args.thread_id),
    ("job_id", .str args.job_id), ("seq", .int (next_seq memory args.thread_id)),
    ("node", .str args.node), ("status", .str args.status), ("payload", .dict args.payload),
    ("tenant_id", .str args.tenant_id), ("created_at", .str now)]

def append_workflow_checkpoint (memory : Memory) (hex now : String) (args : CheckpointArgs) :
    Memory × PyDict :=
  append env memory (workflow_checkpoint memory hex now args)

/-- A namespace is a string. `None` takes the records of all namespaces. -/
def in_namespace (checkpoint_ns : Option String) (item : PyDict) : Bool :=
  match checkpoint_ns with
  | none => true
  | some checkpoint_ns => text? (item.getD "checkpoint_ns" (.str "")) = some checkpoint_ns

/-- The record as the saver gets it: under the ids of LangGraph. -/
def as_langgraph (item : PyDict) : PyDict :=
  (item.set "checkpoint_id" (item.get "langgraph_checkpoint_id")).set "parent_checkpoint_id"
    (item.get "parent_langgraph_checkpoint_id")

def list_langgraph_checkpoints (memory : Memory) (thread_id tenant_id : String)
    (checkpoint_ns : Option String) : List PyDict :=
  let raw := in_memory_list memory thread_id tenant_id 1000
  let items := raw.filter fun item => is_langgraph item && in_namespace checkpoint_ns item
  (items.map as_langgraph).insertionSort fun a b => seq_of b ≤ seq_of a

def get_langgraph_checkpoint_record (memory : Memory) (thread_id tenant_id : String)
    (checkpoint_id checkpoint_ns : Option String) : Option PyDict :=
  let items := list_langgraph_checkpoints memory thread_id tenant_id checkpoint_ns
  match checkpoint_id with
  | some checkpoint_id =>
    if checkpoint_id = "" then items.head?
    else items.find? fun item => text? (item.get "checkpoint_id") = some checkpoint_id
  | none => items.head?

def invalid_record : PyErr :=
  .api { code := "REQ_VALIDATION_FAILED", message := "invalid langgraph checkpoint record",
         error_class := "validation", retryable := false, http_status := 400 }

/-- `str(record.get(key) or "")`. -/
def name_of (record : PyDict) (key : String) : String :=
  ((record.get key).or (.str "")).toStr env.repr

/-- The row of a record under its number. -/
def langgraph_row (record : PyDict) (checkpoint_id : String) (seq : Int) : PyDict :=
  (((((record.set "kind" (.str "langgraph_state")).set "seq" (.int seq)).set
    "langgraph_checkpoint_id" (.str checkpoint_id)).set
      "parent_langgraph_checkpoint_id" (record.get "parent_checkpoint_id")).set
        "checkpoint_id" (.str ("lgcp_" ++ checkpoint_id)))

/-- The number that the row of a record gets: the one of the record that has
its id already, or a new one. -/
def langgraph_seq (memory : Memory) (record : PyDict) : Int :=
  let thread_id := name_of env record "thread_id"
  let tenant_id := tenant_of env record
  let checkpoint_id := name_of env record "checkpoint_id"
  match get_langgraph_checkpoint_record memory thread_id tenant_id (some checkpoint_id)
      (text? (record.getD "checkpoint_ns" (.str ""))) with
  | some existing => seq_of existing
  | none => next_workflow_seq memory thread_id tenant_id

/-- The values of a record are JSON values, so `_json_safe` keeps them. -/
def upsert_langgraph_checkpoint (memory : Memory) (record : PyDict) :
    Except PyErr (Memory × PyDict) :=
  let thread_id := name_of env record "thread_id"
  let checkpoint_id := name_of env record "checkpoint_id"
  if thread_id = "" ∨ checkpoint_id = "" then .error invalid_record
  else .ok (append env memory (langgraph_row record checkpoint_id (langgraph_seq env memory record)))

def delete_langgraph_checkpoints (memory : Memory) (thread_id : String) : Memory :=
  match memory.workflow_checkpoints.get? thread_id with
  | none => memory
  | some rows => put_thread memory thread_id (rows.filter fun item => !is_langgraph item)

/-! ## The checkpoint saver -/

/-- The part `configurable` of a config. -/
structure Config where
  thread_id : String
  checkpoint_ns : Option String
  tenant_id : Option String
  checkpoint_id : Option String
deriving DecidableEq

def Config.ns (config : Config) : String := config.checkpoint_ns.getD ""

def Config.tenant (config : Config) : String := config.tenant_id.getD "tenant_default"

structure CheckpointTuple where
  config : Config
  checkpoint : PyVal
  metadata : PyVal
  parent_config : Option Config
  pending_writes : PyVal

/-- The two functions of LangGraph that the saver calls. -/
structure Langgraph where
  get_checkpoint_id : Config → Option String
  get_checkpoint_metadata : Config → PyVal → PyVal

/-- The id of a config is the one that it names. -/
def Langgraph.ReadsConfig (lib : Langgraph) : Prop :=
  ∀ config, lib.get_checkpoint_id config = config.checkpoint_id

variable (lib : Langgraph)

def tuple_of (config : Config) (record : PyDict) : CheckpointTuple where
  config :=
    { thread_id := config.thread_id, checkpoint_ns := some config.ns,
      tenant_id := some config.tenant, checkpoint_id := text? (record.get "checkpoint_id") }
  checkpoint := record.get "checkpoint"
  metadata := record.getD "metadata" (.dict [])
  parent_config :=
    let parent := record.get "parent_checkpoint_id"
    if parent.truthy then
      some { thread_id := config.thread_id, checkpoint_ns := some config.ns, tenant_id := none,
             checkpoint_id := text? parent }
    else none
  pending_writes := record.getD "pending_writes" (.list [])

def get_tuple (memory : Memory) (config : Config) : Option CheckpointTuple :=
  (get_langgraph_checkpoint_record memory config.thread_id config.tenant
    (lib.get_checkpoint_id config) (some config.ns)).map (tuple_of config)

/-- The two filters of `list` and its limit, over items with an id. -/
def list_filters {α : Type} (id : α → Option String) (checkpoint_id before_id : Option String)
    (limit : Option Int) (items : List α) : List α :=
  let items :=
    match checkpoint_id with
    | some wanted => if wanted = "" then items else items.filter fun item => id item = some wanted
    | none => items
  let items :=
    match before_id with
    | some bound =>
      if bound = "" then items
      else items.filter fun item => ((id item).map fun name => decide (name < bound)).getD false
    | none => items
  match limit with
  | some limit => items.take (max 0 limit).toNat
  | none => items

def list (memory : Memory) (config : Option Config) (before : Option Config) (limit : Option Int) :
    List CheckpointTuple :=
  match config with
  | none => []
  | some config =>
    let items := list_langgraph_checkpoints memory config.thread_id config.tenant (some config.ns)
    (list_filters (fun item => text? (item.get "checkpoint_id")) (lib.get_checkpoint_id config)
      (before.bind lib.get_checkpoint_id) limit items).map (tuple_of config)

def or_null (text : Option String) : PyVal := (text.map .str).getD .none

/-- The record of a checkpoint whose id is `id`. -/
def put_record (config : Config) (id : PyVal) (checkpoint : PyDict) (metadata : PyVal)
    (now : String) : PyDict :=
  [("kind", .str "langgraph_state"), ("thread_id", .str config.thread_id),
    ("tenant_id", .str config.tenant), ("checkpoint_ns", .str config.ns), ("checkpoint_id", id),
    ("parent_checkpoint_id", or_null config.checkpoint_id), ("checkpoint", .dict checkpoint),
    ("metadata", lib.get_checkpoint_metadata config metadata), ("pending_writes", .list []),
    ("created_at", .str now)]

/-- The memory after the call, and how it ended. -/
def put (memory : Memory) (config : Config) (checkpoint : PyDict) (metadata : PyVal) (now : String) :
    Memory × Except PyErr Config :=
  match lookupEntry checkpoint "id" with
  | none => (memory, .error (.raised "KeyError" "'id'"))
  | some id =>
    match upsert_langgraph_checkpoint env memory (put_record lib config id checkpoint metadata now) with
    | .error e => (memory, .error e)
    | .ok (memory, _) =>
      (memory, .ok { thread_id := config.thread_id, checkpoint_ns := some config.ns,
                     tenant_id := some config.tenant, checkpoint_id := text? id })

/-- A write to a channel, with its task. A tuple is stored as a list. -/
def pending_write (task_id : String) (write : String × PyVal) : PyVal :=
  .list [.str task_id, .str write.1, write.2]

def items_of : PyVal → List PyVal
  | .list items => items
  | _ => []

def put_writes (memory : Memory) (config : Config) (writes : List (String × PyVal))
    (task_id now : String) : Memory × Except PyErr Unit :=
  match config.checkpoint_id with
  | none => (memory, .ok ())
  | some checkpoint_id =>
    if checkpoint_id = "" then (memory, .ok ())
    else
      match get_langgraph_checkpoint_record memory config.thread_id config.tenant
          (some checkpoint_id) (some config.ns) with
      | none => (memory, .ok ())
      | some record =>
        let pending := items_of (record.getD "pending_writes" (.list [])) ++
          writes.map (pending_write task_id)
        let record := (record.set "pending_writes" (.list pending)).set "updated_at" (.str now)
        match upsert_langgraph_checkpoint env memory record with
        | .error e => (memory, .error e)
        | .ok (memory, _) => (memory, .ok ())

def delete_thread (memory : Memory) (thread_id : String) : Memory :=
  delete_langgraph_checkpoints memory thread_id

end bid_evaluation.checkpoint_store
