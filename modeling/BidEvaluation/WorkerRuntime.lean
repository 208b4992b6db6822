-- `WorkerRuntime.run_once` of `worker_runtime.py`: for each queue, round after
-- round over the tenants that have messages, a burst for each tenant. The
-- `while` loop gets fuel.
import BidEvaluation.Service

open dict_lib stepwise bid_evaluation.values bid_evaluation.core bid_evaluation.queue_backend
  bid_evaluation.service

namespace bid_evaluation.worker_runtime

/-! ## The runtime -/

structure WorkerRuntime where
  queue_names : List String
  tenant_burst_limit : Nat
  max_messages_per_iteration : Nat

/-- Both limits are at least 1. -/
def WorkerRuntime.init (queue_names : List String)
    (tenant_burst_limit max_messages_per_iteration : Int) : WorkerRuntime where
  queue_names := if queue_names = [] then ["jobs"] else queue_names
  tenant_burst_limit := (max 1 tenant_burst_limit).toNat
  max_messages_per_iteration := (max 1 max_messages_per_iteration).toNat

/-- `_list_tenants`, which leaves out the tenants without a name. -/
def list_worker_tenants (queue_name : String) : Call (List String) :=
  in_queue fun q => (q, .ok ((list_tenants q queue_name).filter fun tenant_id => tenant_id ≠ ""))

/-! ## One iteration -/

inductive IterationEvent where
  | listed (tenants : List String)
  | took (tenant_id : String) (msg : QueueMessage)

/-- The counters of an iteration. The log is not in the source: it has the
listings and the messages in order, for the laws. -/
structure Iteration where
  stats : WorkerRunStats
  log : List IterationEvent

def Iteration.start : Iteration := ⟨WorkerRunStats.zero, []⟩

def Iteration.note (it : Iteration) (event : IterationEvent) : Iteration :=
  { it with log := it.log ++ [event] }

section

variable (env : Env) (rt : WorkerRuntime) (run_job_once : Runner)

/-- `_process_message`, with the message in the log. -/
def process_next (queue_name tenant_id : String) (it : Iteration) : Call (Bool × Iteration) := do
  let msg ← dequeue_message env tenant_id queue_name
  match msg with
  | none => pure (false, it)
  | some msg => do
    let stats ← handle_message env run_job_once tenant_id it.stats msg
    pure (true, { it with stats := stats }.note (.took tenant_id msg))

/-- The burst of a tenant, with `left` rounds of its loop to go. -/
def burst (queue_name tenant_id : String) : Nat → Bool → Iteration → Call (Bool × Iteration)
  | 0, progressed, it => pure (progressed, it)
  | left + 1, progressed, it =>
    if it.stats.processed ≥ rt.max_messages_per_iteration then pure (progressed, it)
    else do
      let (handled, it) ← process_next env run_job_once queue_name tenant_id it
      if handled then burst queue_name tenant_id left true it else pure (progressed, it)

/-- A burst for each tenant. -/
def serve_tenants (queue_name : String) :
    List String → Bool → Iteration → Call (Bool × Iteration)
  | [], progressed, it => pure (progressed, it)
  | tenant_id :: rest, progressed, it => do
    let (progressed, it) ← burst env rt run_job_once queue_name tenant_id rt.tenant_burst_limit
      progressed it
    serve_tenants queue_name rest progressed it

/-- The `while` loop over one queue. There is no value when the fuel ends. -/
def serve_queue (queue_name : String) : Nat → Iteration → Call (Option Iteration)
  | 0, _ => pure none
  | fuel + 1, it =>
    if it.stats.processed < rt.max_messages_per_iteration then do
      let tenants ← list_worker_tenants queue_name
      let it := it.note (.listed tenants)
      if tenants = [] then pure (some it)
      else do
        let (progressed, it) ← serve_tenants env rt run_job_once queue_name tenants false it
        if progressed then serve_queue queue_name fuel it else pure (some it)
    else pure (some it)

def serve_queues (fuel : Nat) : List String → Iteration → Call (Option Iteration)
  | [], it => pure (some it)
  | queue_name :: rest, it => do
    let done ← serve_queue env rt run_job_once queue_name fuel it
    match done with
    | none => pure none
    | some it => serve_queues fuel rest it

def run_once (fuel : Nat) : Call (Option Iteration) :=
  serve_queues env rt run_job_once fuel rt.queue_names Iteration.start

end

end bid_evaluation.worker_runtime
