-- The relay of `routes/internal.py`: it takes the pending events of a tenant
-- out of the outbox and puts one message for each of them into a queue.
import BidEvaluation.Service

open stepwise bid_evaluation.values bid_evaluation.core bid_evaluation.store_ops
  bid_evaluation.queue_backend bid_evaluation.service

namespace bid_evaluation.outbox_relay

/-! ## The message of an event -/

/-- `_job_type_from_event_type`. The word before the first dot, or all
before the last one. -/
def job_type_from_event_type (event_type : String) : String :=
  let chars := event_type.toList
  if ".job.created".toList.isSuffixOf chars then
    String.ofList (chars.takeWhile (fun c => c ≠ '.'))
  else if ".created".toList.isSuffixOf chars then
    String.ofList (chars.take (chars.length - ".created".length))
  else "unknown"

/-- `self.jobs.get(job_id)`. A list and a dict have no hash. -/
def get_job (s : Store) : PyVal → Except PyErr (Option Job)
  | .str job_id => .ok (s.jobs.get? job_id)
  | .list _ => .error (.raised "TypeError" "unhashable type: 'list'")
  | .dict _ => .error (.raised "TypeError" "unhashable type: 'dict'")
  | _ => .ok none

/-- The trace id of the payload, or else the one of the job. -/
def trace_id_of (env : Env) (s : Store) (tenant_id : String) (event_payload : PyDict)
    (job_id : PyVal) : Except PyErr String := do
  let trace_id := ((PyDict.get event_payload "trace_id").or (.str "")).toStr env.repr
  if trace_id ≠ "" then pure trace_id
  else
    match ← get_job s job_id with
    | some job => pure (if job.tenant_id = tenant_id then job.trace_id else "")
    | none => pure ""

def relay_payload (env : Env) (s : Store) (tenant_id consumer_name : String)
    (event : OutboxEvent) : Except PyErr PyDict := do
  let job_id := PyDict.getD event.payload "job_id" (.str event.aggregate_id)
  let job_type :=
    PyDict.getD event.payload "job_type" (.str (job_type_from_event_type event.event_type))
  let trace_id ← trace_id_of env s tenant_id event.payload job_id
  let attempt ← (PyDict.getD event.payload "attempt" (.int 0)).toInt
  pure [("event_id", .str event.event_id), ("job_id", job_id), ("tenant_id", .str tenant_id),
    ("trace_id", .str trace_id), ("job_type", job_type), ("attempt", .int attempt),
    ("consumer_name", .str consumer_name)]

/-! ## The route -/

def enqueue_message (env : Env) (tenant_id queue_name : String) (payload : PyDict) :
    Call QueueMessage := do
  let uuid_hex ← in_store (uuid4_hex12 env)
  let now ← in_store (utcnow env)
  in_queue (fun q => enqueue q now uuid_hex tenant_id queue_name payload none)

/-- One round of the loop. An event that this consumer has got already is
only marked. -/
def relay_event (env : Env) (tenant_id queue_name consumer_name : String)
    (message_ids : List String) (event : OutboxEvent) : Call (List String) := do
  let s ← read
  match get_outbox_delivery s.world.store tenant_id event.event_id consumer_name with
  | some _ => do
    let _ ← in_store (mark_outbox_event_published env tenant_id event.event_id)
    pure message_ids
  | none => do
    let payload ← lift (relay_payload env s.world.store tenant_id consumer_name event)
    let msg ← enqueue_message env tenant_id queue_name payload
    let _ ← in_store
      (mark_outbox_delivered env tenant_id event.event_id consumer_name msg.message_id)
    let _ ← in_store (mark_outbox_event_published env tenant_id event.event_id)
    pure (message_ids ++ [msg.message_id])

structure RelayData where
  published_count : Nat
  queued_count : Nat
  message_ids : List String
  consumer_name : String

def relay_outbox_events (env : Env) (tenant_id queue_name consumer_name : String) (limit : Nat) :
    Call RelayData := do
  let s ← read
  let pending_events := list_outbox_events s.world.store tenant_id (some "pending") limit
  let message_ids ← pending_events.foldlM (relay_event env tenant_id queue_name consumer_name) []
  pure ⟨message_ids.length, message_ids.length, message_ids, consumer_name⟩

/-! ## Runs -/

inductive Move where
  | append (tenant_id event_type aggregate_type aggregate_id : String) (payload : PyDict)
  | relay (tenant_id queue_name consumer_name : String) (limit : Nat)

/-- A request that raised leaves what it wrote. -/
def move (env : Env) (s : Service) : Move → Service
  | .append tenant_id event_type aggregate_type aggregate_id payload =>
    (in_store (append_outbox_event env tenant_id event_type aggregate_type aggregate_id
      payload)).final s
  | .relay tenant_id queue_name consumer_name limit =>
    (relay_outbox_events env tenant_id queue_name consumer_name limit).final s

/-- Any world whose outbox is still empty, with an empty queue. -/
def start (w : World) : Service where
  world := { w with store := { w.store with
    domain_events_outbox := dict_lib.Table.empty
    outbox_delivery_records := dict_lib.Dict.empty } }
  queue := queue_backend.new

def after (env : Env) (w : World) (moves : List Move) : Service :=
  moves.foldl (move env) (start w)

end bid_evaluation.outbox_relay
