-- `run_idempotent` of the persistent stores: the records are in the snapshot
-- too. The process may stop at any write, and comes up again from what it had
-- saved by then.
import BidEvaluation.EndpointLaws
import BidEvaluation.Restarts

open dict_lib stepwise once_lib crash_lib bid_evaluation.values bid_evaluation.core
  bid_evaluation.operations bid_evaluation.routes bid_evaluation.restarts
  bid_evaluation.endpoint_laws
open bid_evaluation.snapshots (fresh json_round_trip restore_state state_snapshot)

namespace bid_evaluation.saved_records

/-! ## The process -/

abbrev Records : Type := Dict (String × String) (Record String PyDict)

/-- The memory, and the records of the snapshot. The store of the snapshot is
the `disk` of the world. -/
structure Host where
  api : Api
  saved : Records

def Host.start : Host := ⟨Ledger.start World.start, Dict.empty⟩

/-- The writes of a call. A write that saves the store saves the records. -/
def with_saves (saves : Nat → Bool) : Nat → Records → List Api → List Host
  | _, _, [] => []
  | n, saved, api :: rest =>
    let saved' := if saves n then api.records else saved
    ⟨api, saved'⟩ :: with_saves saves (n + 1) saved' rest

def in_memory {α : Type} (saves : Nat → Bool) (m : Prog Api PyErr α) : Prog Host PyErr α := fun h =>
  (with_saves saves 0 h.saved (m.written h.api), m.result h.api)

/-- `_save_state`, with the records. -/
def save_state (env : Env) : Prog Host PyErr Unit :=
  if env.persistent then
    write (fun h =>
      ⟨⟨h.api.records, { h.api.rest with disk := some h.api.rest.store }⟩, h.api.records⟩)
  else pure ()

/-- `run_idempotent` of `SqliteBackedStore` and `PostgresBackedStore`. -/
def run_idempotent (env : Env) (saves : Nat → Bool) (c : ClientCall) : Prog Host PyErr PyDict := do
  let data ← in_memory saves (routes.run_idempotent env c.endpoint.text c.tenant_id
    c.idempotency_key c.payload c.execute)
  save_state env
  pure data

/-! ## Restarts -/

/-- What `_restore_state` reads of the records that were saved. -/
@[irreducible] def reload_records (saved : Records) : Records :=
  (restore_state (json_round_trip (state_snapshot { fresh with idempotency_records := saved }))
    fresh).idempotency_records

theorem get?_reload_records (saved : Records) (key : String × String) :
    (reload_records saved).get? key = (saved.get? key).map snapshot_laws.canonical := by
  unfold reload_records
  exact snapshot_laws.restored_records _ key

def come_up (waiting : String → Option EvaluationState) (h : Host) : Host :=
  ⟨⟨reload_records h.saved, restart waiting h.api.rest⟩, h.saved⟩

theorem come_up_records (waiting : String → Option EvaluationState) (h : Host) :
    (come_up waiting h).api.records = reload_records h.saved := rfl

/-! ## Runs -/

/-- What a process does: it serves a request, or another operation. -/
inductive Task where
  | request (c : ClientCall)
  | operation (op : operations.Op)

/-- `saves` tells which writes of the task save the snapshot. -/
structure Turn where
  task : Task
  saves : Nat → Bool

def Turn.written (env : Env) (turn : Turn) (h : Host) : List Host :=
  match turn.task with
  | .request c => (run_idempotent env turn.saves c).written h
  | .operation op => (in_memory turn.saves (on_rest (op.act env))).written h

abbrev Life := crash_lib.Event Turn (String → Option EvaluationState)

def lives (env : Env) (h : Host) (events : List Life) : List Host :=
  states (Turn.written env) come_up h events

def live (env : Env) (h : Host) (events : List Life) : Host :=
  run (Turn.written env) come_up h events

end bid_evaluation.saved_records
