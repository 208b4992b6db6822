-- `RedisQueueBackend` of `queue_backend.py`: each call is a script of the
-- Redis commands that it makes, in the order of the source. A key of each
-- kind has a table of its own, and JSON texts are the data that they write.
import BidEvaluation.Lib.Interleaving
import BidEvaluation.QueueBackend
import Mathlib.Data.Finset.Option
import Mathlib.Data.Finset.Sort
import Mathlib.Data.Finset.Union

open interleaving bid_evaluation.values bid_evaluation.queue_backend

namespace bid_evaluation.redis_queue

/-! ## Redis -/

inductive Status where
  | pending
  | inflight
  | discarded
deriving DecidableEq

/-- What stands under `_idx_key`. -/
structure Idx where
  tenant_id : String
  queue_name : String

/-- What stands under `_msg_key`. -/
structure MsgData where
  tenant_id : String
  queue_name : String
  payload : PyDict
  attempt : Int
  status : Status
  available_at : Int

/-- `ticks` counts the readings of the clock. -/
structure Redis where
  idx : String → Option Idx
  msgs : String → Option MsgData
  lists : String → List String
  sets : String → Finset String
  registry : Finset String
  ticks : Nat

def empty : Redis := ⟨fun _ => none, fun _ => none, fun _ => [], fun _ => ∅, ∅, 0⟩

inductive Command where
  | get_idx (message_id : String)
  | set_idx (message_id : String) (data : Idx)
  | del_idx (message_id : String)
  | get_msg (message_id : String)
  | set_msg (message_id : String) (data : MsgData)
  | del_msg (message_id : String)
  | llen (key : String)
  | lpop (key : String)
  | rpush (key message_id : String)
  | lpush (key message_id : String)
  | sadd (key message_id : String)
  | srem (key message_id : String)
  | track (key : String)
  | utcnow

abbrev Reply : Command → Type
  | .get_idx _ => Option Idx
  | .get_msg _ => Option MsgData
  | .llen _ => Nat
  | .lpop _ => Option String
  | .utcnow => Int
  | _ => Unit

def exec (clock : Nat → Int) : Exec Command Reply Redis
  | .get_idx id, s => (s, s.idx id)
  | .set_idx id data, s => ({ s with idx := Function.update s.idx id (some data) }, ())
  | .del_idx id, s => ({ s with idx := Function.update s.idx id none }, ())
  | .get_msg id, s => (s, s.msgs id)
  | .set_msg id data, s => ({ s with msgs := Function.update s.msgs id (some data) }, ())
  | .del_msg id, s => ({ s with msgs := Function.update s.msgs id none }, ())
  | .llen key, s => (s, (s.lists key).length)
  | .lpop key, s =>
    ({ s with lists := Function.update s.lists key (s.lists key).tail }, (s.lists key).head?)
  | .rpush key id, s => ({ s with lists := Function.update s.lists key (s.lists key ++ [id]) }, ())
  | .lpush key id, s => ({ s with lists := Function.update s.lists key (id :: s.lists key) }, ())
  | .sadd key id, s => ({ s with sets := Function.update s.sets key (insert id (s.sets key)) }, ())
  | .srem key id, s => ({ s with sets := Function.update s.sets key ((s.sets key).erase id) }, ())
  | .track key, s => ({ s with registry := insert key s.registry }, ())
  | .utcnow, s => ({ s with ticks := s.ticks + 1 }, clock s.ticks)

/-! ## The calls -/

abbrev RedisM := Script Command Reply

def send (c : Command) : RedisM (Reply c) := Script.request c

def pending_key (ns tenant_id queue_name : String) : String :=
  ns ++ ":" ++ tenant_id ++ ":queue:" ++ queue_name ++ ":pending"

def inflight_key (ns tenant_id queue_name : String) : String :=
  ns ++ ":" ++ tenant_id ++ ":queue:" ++ queue_name ++ ":inflight"

def msg_key (ns message_id : String) : String := ns ++ ":msg:" ++ message_id

def idx_key (ns message_id : String) : String := ns ++ ":msgidx:" ++ message_id

def track_keys : List String → RedisM Unit
  | [] => pure ()
  | key :: keys => do
    send (.track key)
    track_keys keys

def load_idx (message_id : String) : RedisM (Option Idx) := do
  match ← send (.get_idx message_id) with
  | none => pure none
  | some idx => if idx.tenant_id = "" ∨ idx.queue_name = "" then pure none else pure (some idx)

def is_available (msg_data : MsgData) : RedisM Bool := do
  let now ← send .utcnow
  pure (msg_data.available_at ≤ now)

/-- What the caller gets for a stored message. -/
def MsgData.message (msg_data : MsgData) (message_id : String) : QueueMessage where
  message_id := message_id
  tenant_id := msg_data.tenant_id
  queue_name := msg_data.queue_name
  payload := msg_data.payload
  attempt := msg_data.attempt
  available_at := some msg_data.available_at

/-- What a call returns or raises. -/
abbrev Outcome := Except PyErr (Option QueueMessage)

/-- `uuid_hex` is the draw of `uuid.uuid4().hex[:12]`. -/
def enqueue (ns uuid_hex tenant_id queue_name : String) (payload : PyDict)
    (available_at : Option Int) : RedisM Outcome :=
  match (PyDict.getD payload "attempt" (.int 0)).toInt with
  | .error e => pure (.error e)
  | .ok attempt => do
    let message_id := "msg_" ++ uuid_hex
    let due ← match available_at with
      | some due => pure due
      | none => send .utcnow
    let msg_data : MsgData := ⟨tenant_id, queue_name, payload, attempt, .pending, due⟩
    send (.set_idx message_id ⟨tenant_id, queue_name⟩)
    send (.set_msg message_id msg_data)
    send (.rpush (pending_key ns tenant_id queue_name) message_id)
    track_keys [pending_key ns tenant_id queue_name, inflight_key ns tenant_id queue_name,
      idx_key ns message_id, msg_key ns message_id]
    pure (.ok (some (msg_data.message message_id)))

/-- The `while` loop of `dequeue`, with `pending_count - scanned` rounds
left. A message is in no list and no set while its data is read. -/
def scan (ns tenant_id queue_name : String) : Nat → RedisM Outcome
  | 0 => pure (.ok none)
  | left + 1 => do
    match ← send (.lpop (pending_key ns tenant_id queue_name)) with
    | none => pure (.ok none)
    | some message_id =>
      if message_id = "" then pure (.ok none)
      else
        match ← send (.get_msg message_id) with
        | none => scan ns tenant_id queue_name left
        | some msg_data =>
          if ← is_available msg_data then
            send (.set_msg message_id { msg_data with status := .inflight })
            send (.sadd (inflight_key ns tenant_id queue_name) message_id)
            track_keys [pending_key ns tenant_id queue_name, inflight_key ns tenant_id queue_name]
            pure (.ok (some (msg_data.message message_id)))
          else
            send (.rpush (pending_key ns tenant_id queue_name) message_id)
            scan ns tenant_id queue_name left

def dequeue (ns tenant_id queue_name : String) : RedisM Outcome := do
  let pending_count ← send (.llen (pending_key ns tenant_id queue_name))
  scan ns tenant_id queue_name pending_count

/-- The reads that `ack` and `nack` begin with, and what follows them for a
message in flight. -/
def with_inflight (tenant_id message_id : String) (rest : Idx → MsgData → RedisM Outcome) :
    RedisM Outcome := do
  match ← load_idx message_id with
  | none => pure (.ok none)
  | some idx =>
    if idx.tenant_id ≠ tenant_id then pure (.error tenant_mismatch)
    else
      match ← send (.get_msg message_id) with
      | none => pure (.ok none)
      | some msg_data =>
        if msg_data.status ≠ .inflight then pure (.ok none) else rest idx msg_data

def ack (ns tenant_id message_id : String) : RedisM Outcome :=
  with_inflight tenant_id message_id fun idx _ => do
    send (.srem (inflight_key ns tenant_id idx.queue_name) message_id)
    send (.del_msg message_id)
    send (.del_idx message_id)
    pure (.ok none)

def nack (ns tenant_id message_id : String) (requeue : Bool) (delay_ms : Int) : RedisM Outcome :=
  with_inflight tenant_id message_id fun idx msg_data => do
    let msg_data := { msg_data with attempt := msg_data.attempt + 1 }
    if requeue then
      let now ← send .utcnow
      let msg_data :=
        { msg_data with status := .pending, available_at := now + 1000 * max 0 delay_ms }
      send (.set_msg message_id msg_data)
      send (.srem (inflight_key ns tenant_id idx.queue_name) message_id)
      send (.lpush (pending_key ns tenant_id idx.queue_name) message_id)
      pure (.ok (some (nacked tenant_id message_id idx msg_data)))
    else
      send (.set_msg message_id { msg_data with status := .discarded })
      send (.srem (inflight_key ns tenant_id idx.queue_name) message_id)
      pure (.ok (some (nacked tenant_id message_id idx msg_data)))
where
  /-- The message of the result has the tenant of the call and the queue of
  the index. -/
  nacked (tenant_id message_id : String) (idx : Idx) (msg_data : MsgData) : QueueMessage :=
    { msg_data.message message_id with tenant_id := tenant_id, queue_name := idx.queue_name }

/-! ## The calls that read the registry -/

def pending_count (ns : String) (s : Redis) (tenant_id queue_name : String) : Nat :=
  (s.lists (pending_key ns tenant_id queue_name)).length

def list_tenants (ns : String) (s : Redis) (queue_name : String) : List String :=
  (s.registry.biUnion (fun key =>
    if (s.lists key).isEmpty then ∅
    else (tenant_in (ns ++ ":") (":queue:" ++ queue_name ++ ":pending") key).toFinset)).sort

/-- Deletes the keys of the registry, and the registry. -/
def reset (ns : String) (s : Redis) : Redis where
  idx id := if idx_key ns id ∈ s.registry then none else s.idx id
  msgs id := if msg_key ns id ∈ s.registry then none else s.msgs id
  lists key := if key ∈ s.registry then [] else s.lists key
  sets key := if key ∈ s.registry then ∅ else s.sets key
  registry := ∅
  ticks := s.ticks

/-! ## The system -/

inductive Call where
  | enqueue (tenant_id queue_name : String) (payload : PyDict) (available_at : Option Int)
  | dequeue (tenant_id queue_name : String)
  | ack (tenant_id message_id : String)
  | nack (tenant_id message_id : String) (requeue : Bool) (delay_ms : Int)

/-- What the processes share beside Redis. -/
structure Setting where
  ns : String
  uuid4 : Uuid4
  clock : Nat → Int

/-- The id that the call with this ticket draws if it enqueues. -/
def Setting.message_id (env : Setting) (ticket : Nat) : String :=
  "msg_" ++ env.uuid4.hex12 ticket

def code (env : Setting) (ticket : Nat) : Call → RedisM Outcome
  | .enqueue tenant_id queue_name payload available_at =>
    enqueue env.ns (env.uuid4.hex12 ticket) tenant_id queue_name payload available_at
  | .dequeue tenant_id queue_name => dequeue env.ns tenant_id queue_name
  | .ack tenant_id message_id => ack env.ns tenant_id message_id
  | .nack tenant_id message_id requeue delay_ms =>
    nack env.ns tenant_id message_id requeue delay_ms

abbrev RedisSystem (π : Type) := System Command Reply Redis π Call Outcome

variable {π : Type} [DecidableEq π]

def move (env : Setting) : RedisSystem π → Move π Call → RedisSystem π :=
  System.move (exec env.clock) (code env)

/-- The state after these moves of processes that start on an empty Redis. -/
def after (env : Setting) (moves : List (Move π Call)) : RedisSystem π :=
  moves.foldl (move env) (System.start empty)

end bid_evaluation.redis_queue
