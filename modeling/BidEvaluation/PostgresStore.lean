-- `PostgresBackedStore` of `store_backends.py`, for processes on the same
-- database. A process loads the snapshot row in `__init__` only. Each call
-- that changes something works on the memory of its process, and writes the
-- whole memory over the row at its end.
import BidEvaluation.Lib.SharedRow
import BidEvaluation.Operations
import BidEvaluation.Routes

open dict_lib stepwise once_lib shared_row bid_evaluation.values bid_evaluation.core
  bid_evaluation.store_ops bid_evaluation.operations bid_evaluation.routes

namespace bid_evaluation.postgres_store

/-! ## The snapshot -/

/-- What the row has: the collections of the store, and the idempotency
records. -/
structure Snapshot where
  idempotency_records : Dict (String × String) (Record String PyDict)
  store : Store

def state_snapshot (api : Api) : Snapshot := ⟨api.records, api.rest.store⟩

def restore_state (payload : Snapshot) (api : Api) : Api :=
  ⟨payload.idempotency_records, { api.rest with store := payload.store }⟩

/-- `InMemoryStore.__init__`. The draws of a process go on. -/
def fresh (api : Api) : Api := Ledger.start { World.start with draws := api.rest.draws }

/-- `__init__` with its `_load_state`. -/
def init (row : Option Snapshot) (api : Api) : Api :=
  match row with
  | none => fresh api
  | some payload => restore_state payload (fresh api)

@[simp] theorem state_snapshot_restore (payload : Snapshot) (api : Api) :
    state_snapshot (restore_state payload api) = payload := rfl

/-! ## Updates -/

/-- What a process can commit. -/
inductive Update where
  | outbox_event (event_id : String)
  | token_used (evaluation_id resume_token : String)
  | legal_hold (hold_id : String)
  | idempotency_record (scope key : String)
  | audit_entry (audit_id : String)

def holds : Update → Snapshot → Bool
  | .outbox_event event_id, t => (t.store.domain_events_outbox.get? event_id).isSome
  | .token_used evaluation_id resume_token, t =>
    (t.store.resume_tokens.get? evaluation_id).any fun record =>
      record.resume_token = resume_token && record.used
  | .legal_hold hold_id, t => (t.store.legal_hold_objects.get? hold_id).isSome
  | .idempotency_record scope key, t => (t.idempotency_records.get? (scope, key)).isSome
  | .audit_entry audit_id, t => t.store.audit_logs.any fun log => log.audit_id = audit_id

/-- The processes on one row. -/
def postgres : Setup Api Snapshot Update where
  snapshot := state_snapshot
  load := init
  holds := holds
  loaded _ _ := rfl

abbrev Processes (π : Type) := System Api Snapshot Update π

/-! ## Calls -/

/-- The operations of `InMemoryStore` save nothing. -/
def in_memory (env : Env) : Env := { env with persistent := false }

/-- A call: the writes of `super()` one after the other, and then
`_save_state`, unless they end in a raise. -/
def call_moves {π : Type} (p : π) (m : Prog Api PyErr α) (api : Api) : List (Move Api π) :=
  (m.written api).map (Move.write p) ++
    match m.result api with
    | .ok _ => [.save p]
    | .error _ => []

variable {π : Type} [DecidableEq π]

theorem memory_of_writes (s : Processes π) (p : π) (written : List Api) :
    (postgres.after s (written.map (Move.write p))).memory p = lastState (s.memory p) written ∧
      (postgres.after s (written.map (Move.write p))).row = s.row := by
  induction written generalizing s with
  | nil => exact ⟨rfl, rfl⟩
  | cons api rest ih =>
    obtain ⟨hmemory, hrow⟩ := ih (postgres.move s (.write p api))
    have hwritten : (postgres.move s (.write p api)).memory p = api := by simp [Setup.move]
    rw [hwritten] at hmemory
    rw [List.map_cons, lastState_cons]
    exact ⟨hmemory, hrow⟩

/-- A call that returns has written the memory that it leaves over the row. -/
theorem call_moves.commits (s : Processes π) (p : π) (m : Prog Api PyErr α) {a : α}
    (h : m.result (s.memory p) = .ok a) :
    (postgres.after s (call_moves p m (s.memory p))).row =
      some (state_snapshot (m.final (s.memory p))) := by
  unfold call_moves
  rw [h, Setup.after_append]
  obtain ⟨hmemory, -⟩ := memory_of_writes s p (m.written (s.memory p))
  show some (state_snapshot _) = _
  rw [hmemory]
  rfl

/-! ## The laws -/

/-- What one process commits stays in the row, whatever the others save,
exactly when every save is made by a process that has held all that the
others have put into the row since it started. -/
theorem no_update_is_lost_iff (row : Option Snapshot) (memory : π → Api)
    (moves : List (Move Api π)) :
    postgres.Persistent (postgres.begin row memory) moves ↔
      ∀ done p, done ++ [.save p] <+: moves →
        postgres.UpToDate (postgres.after (postgres.begin row memory) done) p :=
  (Setup.Tracked.begin row memory).persistent_iff moves

/-! The two services of the deployment. -/

inductive Process where
  | api
  | worker
deriving DecidableEq

def announce (env : Env) (aggregate_id : String) : Prog Api PyErr OutboxEvent :=
  on_rest (append_outbox_event (in_memory env) "tenant" "job.created" "job" aggregate_id [])

/-- Both start on the empty database. Each appends one event, and the worker
has not saved its own yet. The draws of the worker are not those of the API. -/
def both_append (env : Env) : List (Move Api Process) :=
  [.start .api, .start .worker] ++
    call_moves .api (announce env "job_a") (Ledger.start World.start) ++
    ((announce env "job_b").written (Ledger.start { World.start with draws := 10 })).map
      (Move.write .worker)

def both_processes : Processes Process :=
  postgres.begin none fun
    | .api => Ledger.start World.start
    | .worker => Ledger.start { World.start with draws := 10 }

theorem worker_drops_the_event_of_the_api :
    ¬ postgres.Persistent both_processes (both_append calm_env ++ [.save .worker]) := by
  intro hstays
  have hall := (Setup.Tracked.begin none _).persistent_iff _ |>.1 hstays
  have huptodate := hall (both_append calm_env) .worker (List.prefix_refl _)
    (.outbox_event "evt_") (by decide +kernel) (by decide +kernel)
  revert huptodate
  decide +kernel

end bid_evaluation.postgres_store
