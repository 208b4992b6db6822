-- The store and the queue behind the routes and the worker. A call runs
-- programs of both: `worker_runtime.py`, and the drain route of
-- `routes/internal.py`.
import BidEvaluation.RunJobOnce
import BidEvaluation.QueueBackend

open dict_lib stepwise bid_evaluation.values bid_evaluation.core bid_evaluation.store_ops
  bid_evaluation.store_admin bid_evaluation.job_run bid_evaluation.queue_backend

namespace bid_evaluation.service

/-! ## Calls -/

structure Service where
  world : World
  queue : InMemoryQueueBackend

abbrev Call (α : Type) : Type := Prog Service PyErr α

def in_store (m : Act α) : Call α := fun s =>
  ((m.written s.world).map (fun w => { s with world := w }), m.result s.world)

def in_queue (f : InMemoryQueueBackend → InMemoryQueueBackend × Except PyErr α) : Call α :=
  fun s => ([{ s with queue := (f s.queue).1 }], (f s.queue).2)

def dequeue_message (env : Env) (tenant_id queue_name : String) : Call (Option QueueMessage) := do
  let now ← in_store (utcnow env)
  in_queue (fun q => ((dequeue q now tenant_id queue_name).1,
    .ok (dequeue q now tenant_id queue_name).2))

def ack_message (tenant_id message_id : String) : Call Unit :=
  in_queue (fun q => queue_backend.ack q tenant_id message_id)

def nack_message (env : Env) (tenant_id message_id : String) (requeue : Bool) (delay_ms : Int) :
    Call (Option QueueMessage) := do
  let now ← in_store (utcnow env)
  in_queue (fun q => nack q now tenant_id message_id requeue delay_ms)

/-! ## What a call leaves -/

section

variable {s : Service}

@[simp] theorem result_in_store (m : Act α) : (in_store m).result s = m.result s.world := rfl

@[simp] theorem final_in_store (m : Act α) :
    (in_store m).final s = { s with world := m.final s.world } := by
  unfold Prog.final in_store lastState Prog.written
  rw [List.getLast?_map]
  cases (m s.world).1.getLast? <;> rfl

@[simp] theorem result_in_queue
    (f : InMemoryQueueBackend → InMemoryQueueBackend × Except PyErr α) :
    (in_queue f).result s = (f s.queue).2 := rfl

@[simp] theorem final_in_queue
    (f : InMemoryQueueBackend → InMemoryQueueBackend × Except PyErr α) :
    (in_queue f).final s = { s with queue := (f s.queue).1 } := rfl

end

/-! ## One message -/

/-- `run_job_once` of the store that the worker or the route has. -/
abbrev Runner : Type := String → String → Act RunResult

/-- `str(msg.payload.get("job_id") or "")`. -/
def job_id_of (env : Env) (msg : QueueMessage) : String :=
  ((PyDict.get msg.payload "job_id").or (.str "")).toStr env.repr

/-- Back into the queue for a retry, or out of it. -/
def settle (env : Env) (tenant_id : String) (msg : QueueMessage) (result : RunResult) :
    Call Unit :=
  if result.final_status = .retrying then do
    let delay_ms : Int := result.retry_after_ms.getD 0
    let _ ← nack_message env tenant_id msg.message_id true (max 0 delay_ms)
    pure ()
  else ack_message tenant_id msg.message_id

structure WorkerRunStats where
  processed : Nat
  succeeded : Nat
  retrying : Nat
  failed : Nat
  acked : Nat
  requeued : Nat

def WorkerRunStats.zero : WorkerRunStats := ⟨0, 0, 0, 0, 0, 0⟩

/-- The worker counts a job that waits for a decision as a success. -/
def WorkerRunStats.count (stats : WorkerRunStats) (result : RunResult) : WorkerRunStats :=
  if result.final_status = .retrying then
    { stats with requeued := stats.requeued + 1, retrying := stats.retrying + 1 }
  else if result.final_status = .succeeded ∨ result.final_status = .needs_manual_decision then
    { stats with acked := stats.acked + 1, succeeded := stats.succeeded + 1 }
  else { stats with acked := stats.acked + 1, failed := stats.failed + 1 }

/-- `_process_message` after the dequeue. Any exception of the run ends in
an ack. -/
def handle_message (env : Env) (run_job_once : Runner) (tenant_id : String)
    (stats : WorkerRunStats) (msg : QueueMessage) : Call WorkerRunStats := do
  let stats := { stats with processed := stats.processed + 1 }
  if job_id_of env msg = "" then do
    ack_message tenant_id msg.message_id
    pure { stats with acked := stats.acked + 1 }
  else do
    let outcome ← attempt (in_store (run_job_once (job_id_of env msg) tenant_id))
    match outcome with
    | .error _ => do
      ack_message tenant_id msg.message_id
      pure { stats with acked := stats.acked + 1, failed := stats.failed + 1 }
    | .ok result => do
      settle env tenant_id msg result
      pure (stats.count result)

def process_message (env : Env) (run_job_once : Runner) (queue_name tenant_id : String)
    (stats : WorkerRunStats) : Call (Bool × WorkerRunStats) := do
  let msg ← dequeue_message env tenant_id queue_name
  match msg with
  | none => pure (false, stats)
  | some msg => do
    let stats ← handle_message env run_job_once tenant_id stats msg
    pure (true, stats)

/-! ## The drain route -/

structure DrainData where
  processed : Nat
  succeeded : Nat
  retrying : Nat
  failed : Nat
  acked : Nat
  requeued : Nat
  message_ids : List String

def DrainData.zero : DrainData := ⟨0, 0, 0, 0, 0, 0, []⟩

/-- The route counts a job that waits for a decision as a failure. -/
def DrainData.count (data : DrainData) (result : RunResult) : DrainData :=
  if result.final_status = .retrying then
    { data with requeued := data.requeued + 1, retrying := data.retrying + 1 }
  else if result.final_status = .succeeded then
    { data with acked := data.acked + 1, succeeded := data.succeeded + 1 }
  else { data with acked := data.acked + 1, failed := data.failed + 1 }

/-- One round of `drain-once` after the dequeue. Nothing catches an
exception of the run. -/
def drain_message (env : Env) (run_job_once : Runner) (tenant_id : String) (data : DrainData)
    (msg : QueueMessage) : Call DrainData := do
  let data := { data with
    processed := data.processed + 1
    message_ids := data.message_ids ++ [msg.message_id] }
  if job_id_of env msg = "" then do
    ack_message tenant_id msg.message_id
    pure { data with acked := data.acked + 1 }
  else do
    let result ← in_store (run_job_once (job_id_of env msg) tenant_id)
    settle env tenant_id msg result
    pure (data.count result)

/-- The loop of `drain-once`, with `left` rounds to go. -/
def drain_once (env : Env) (run_job_once : Runner) (tenant_id queue_name : String) :
    Nat → DrainData → Call DrainData
  | 0, data => pure data
  | left + 1, data => do
    let msg ← dequeue_message env tenant_id queue_name
    match msg with
    | none => pure data
    | some msg => do
      let data ← drain_message env run_job_once tenant_id data msg
      drain_once env run_job_once tenant_id queue_name left data

/-- The worker runs a job with no flags. -/
def worker_runner (env : Env) : Runner := fun job_id tenant_id =>
  run_job_once env job_id tenant_id RunFlags.default

/-- The route passes its debug flags on. -/
def drain_runner (env : Env) (flags : RunFlags) : Runner := fun job_id tenant_id =>
  run_job_once env job_id tenant_id flags

end bid_evaluation.service
