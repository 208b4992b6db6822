-- `InMemoryQueueBackend` of `queue_backend.py`: one deque for each queue
-- key, and the map of messages that are in flight. Times are instants in
-- microseconds. `uuid_hex` is the draw of `uuid.uuid4().hex[:12]`.
import BidEvaluation.Values
import Mathlib.Data.List.Dedup
import Mathlib.Data.List.Sort
import Mathlib.Data.String.Basic

open dict_lib bid_evaluation.values

namespace bid_evaluation.queue_backend

/-! ## The queue -/

structure QueueMessage where
  message_id : String
  tenant_id : String
  queue_name : String
  payload : PyDict
  attempt : Int
  available_at : Option Int

/-- `_inflight` is only read and written by key, so it is a function. -/
structure InMemoryQueueBackend where
  queues : Dict String (List QueueMessage)
  inflight : String → Option QueueMessage

def new : InMemoryQueueBackend := ⟨Dict.empty, fun _ => none⟩

def is_available (now : Int) (msg : QueueMessage) : Bool :=
  match msg.available_at with
  | none => true
  | some due => due ≤ now

def queue_key (tenant_id queue_name : String) : String :=
  "bea:" ++ tenant_id ++ ":queue:" ++ queue_name

/-- The deque under a key. A key that was never used has an empty one. -/
def InMemoryQueueBackend.deque (q : InMemoryQueueBackend) (key : String) : List QueueMessage :=
  (q.queues.get? key).getD []

def enqueue (q : InMemoryQueueBackend) (now : Int) (uuid_hex tenant_id queue_name : String)
    (payload : PyDict) (available_at : Option Int) :
    InMemoryQueueBackend × Except PyErr QueueMessage :=
  match (PyDict.getD payload "attempt" (.int 0)).toInt with
  | .error e => (q, .error e)
  | .ok attempt =>
    let key := queue_key tenant_id queue_name
    let msg : QueueMessage := {
      message_id := "msg_" ++ uuid_hex
      tenant_id := tenant_id
      queue_name := queue_name
      payload := payload
      attempt := attempt
      available_at := some (available_at.getD now) }
    ({ q with queues := q.queues.set key (q.deque key ++ [msg]) }, .ok msg)

/-- The `while` loop of `dequeue`, with `size - scanned` rounds left. A
message that is not due yet goes from the front to the back. -/
def scan (now : Int) : Nat → List QueueMessage → Option QueueMessage × List QueueMessage
  | 0, queue => (none, queue)
  | _ + 1, [] => (none, [])
  | left + 1, msg :: rest =>
    if is_available now msg then (some msg, rest) else scan now left (rest ++ [msg])

def dequeue (q : InMemoryQueueBackend) (now : Int) (tenant_id queue_name : String) :
    InMemoryQueueBackend × Option QueueMessage :=
  let key := queue_key tenant_id queue_name
  let queue := q.deque key
  match scan now queue.length queue with
  | (none, queue') => ({ q with queues := q.queues.set key queue' }, none)
  | (some msg, queue') =>
    ({ queues := q.queues.set key queue'
       inflight := Function.update q.inflight msg.message_id (some msg) }, some msg)

def tenant_mismatch : PyErr := .raised "RuntimeError" "tenant mismatch for queue message"

def ack (q : InMemoryQueueBackend) (tenant_id message_id : String) :
    InMemoryQueueBackend × Except PyErr Unit :=
  match q.inflight message_id with
  | none => (q, .ok ())
  | some msg =>
    if msg.tenant_id ≠ tenant_id then (q, .error tenant_mismatch)
    else ({ q with inflight := Function.update q.inflight message_id none }, .ok ())

/-- A nack counts one more attempt whether or not it puts the message
back. A refused nack puts the popped message back in flight. -/
def nack (q : InMemoryQueueBackend) (now : Int) (tenant_id message_id : String)
    (requeue : Bool) (delay_ms : Int) :
    InMemoryQueueBackend × Except PyErr (Option QueueMessage) :=
  match q.inflight message_id with
  | none => (q, .ok none)
  | some msg =>
    let popped := Function.update q.inflight message_id none
    if msg.tenant_id ≠ tenant_id then
      ({ q with inflight := Function.update popped message_id (some msg) },
        .error tenant_mismatch)
    else
      let msg := { msg with attempt := msg.attempt + 1 }
      if requeue then
        let msg := { msg with available_at := some (now + 1000 * max 0 delay_ms) }
        let key := queue_key msg.tenant_id msg.queue_name
        ({ queues := q.queues.set key (msg :: q.deque key), inflight := popped }, .ok (some msg))
      else ({ q with inflight := popped }, .ok (some msg))

def pending_count (q : InMemoryQueueBackend) (tenant_id queue_name : String) : Nat :=
  (q.deque (queue_key tenant_id queue_name)).length

def reset (_ : InMemoryQueueBackend) : InMemoryQueueBackend := new

/-- `key[len(start):-len(suffix)]` of a key with this start and this end. -/
def tenant_in (start suffix key : String) : Option String :=
  if start.toList <+: key.toList ∧ suffix.toList <:+ key.toList then
    let kept := key.toList.take (key.toList.length - suffix.toList.length)
    let tenant_id := String.ofList (kept.drop start.toList.length)
    if tenant_id = "" then none else some tenant_id
  else none

/-- `sorted` of a set of tenants. -/
def sorted_tenants (tenants : List String) : List String :=
  tenants.dedup.insertionSort (· ≤ ·)

def list_tenants (q : InMemoryQueueBackend) (queue_name : String) : List String :=
  sorted_tenants (q.queues.entries.filterMap (fun (key, queue) =>
    if queue.isEmpty then none else tenant_in "bea:" (":queue:" ++ queue_name) key))

/-! ## What one call does to a deque -/

@[simp] theorem deque_set (q : InMemoryQueueBackend) (key k : String) (l : List QueueMessage) :
    InMemoryQueueBackend.deque { q with queues := q.queues.set key l } k =
      if k = key then l else q.deque k := by
  unfold InMemoryQueueBackend.deque
  rw [Dict.get?_set]
  split <;> simp

@[simp] theorem deque_new (k : String) : new.deque k = [] := rfl

/-- A scan takes at most one message out, that message is due, and the
others are all still there. -/
theorem scan.spec (now : Int) (left : Nat) (queue : List QueueMessage) :
    match scan now left queue with
    | (none, queue') => queue'.Perm queue
    | (some msg, queue') => is_available now msg = true ∧ (msg :: queue').Perm queue := by
  induction left generalizing queue with
  | zero => exact List.Perm.refl _
  | succ left ih =>
    cases queue with
    | nil => exact List.Perm.refl _
    | cons msg rest =>
      by_cases hdue : is_available now msg
      · simp [scan, hdue]
      · have hrot : (rest ++ [msg]).Perm (msg :: rest) := List.perm_append_singleton msg rest
        have hrest := ih (rest ++ [msg])
        simp only [scan, hdue, Bool.false_eq_true, if_false]
        split at hrest
        · exact hrest.trans hrot
        · exact ⟨hrest.1, hrest.2.trans hrot⟩

/-- A dequeue leaves all messages, in some order, or takes one that is due. -/
theorem dequeue.spec (q : InMemoryQueueBackend) (now : Int) (tenant_id queue_name : String) : ∃ left,
    dequeue q now tenant_id queue_name =
        ({ q with queues := q.queues.set (queue_key tenant_id queue_name) left }, none) ∧
      left.Perm (q.deque (queue_key tenant_id queue_name)) ∨
    ∃ msg, dequeue q now tenant_id queue_name =
        ({ queues := q.queues.set (queue_key tenant_id queue_name) left
           inflight := Function.update q.inflight msg.message_id (some msg) }, some msg) ∧
      is_available now msg = true ∧ (msg :: left).Perm (q.deque (queue_key tenant_id queue_name)) := by
  unfold dequeue
  dsimp only
  generalize queue_key tenant_id queue_name = key
  have hscan := scan.spec now (q.deque key).length (q.deque key)
  generalize scan now (q.deque key).length (q.deque key) = result at hscan ⊢
  rcases result with ⟨_ | msg, left⟩
  · exact ⟨left, .inl ⟨rfl, hscan⟩⟩
  · exact ⟨left, .inr ⟨msg, rfl, hscan⟩⟩

/-- A refused nack leaves the map of messages in flight as it was. -/
theorem update_back {f : String → Option QueueMessage} {id : String} {msg : QueueMessage}
    (h : f id = some msg) : Function.update (Function.update f id none) id (some msg) = f := by
  rw [Function.update_idem, ← h, Function.update_eq_self]

end bid_evaluation.queue_backend
