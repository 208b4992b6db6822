-- The law of reads: a read of the audit log or of a thread leaves the
-- collections in memory as they were exactly when what it loads is what they
-- are.
import BidEvaluation.Lib.OwnedTable
import BidEvaluation.Operations
import BidEvaluation.PostgresLogs

open dict_lib lockstep bid_evaluation.values bid_evaluation.audit_logs
  bid_evaluation.postgres_logs
open bid_evaluation.core (Env)
open bid_evaluation.operations (calm_env)

namespace bid_evaluation.read_laws

variable {env : Env} {sha256 : String → String} {s t : State}

/-- The chain of the log and the threads are as before: the check of the log
gives the same answer, the next entry names the same last entry, and the next
checkpoint of each thread gets the same number. -/
structure Undisturbed (env : Env) (sha256 : String → String) (s t : State) : Prop where
  audit_logs : t.memory.audit_logs = s.memory.audit_logs
  threads : ∀ thread_id, thread_rows t.memory thread_id = thread_rows s.memory thread_id
  verified : ∀ tenant_id, verify_audit_integrity env sha256 t.memory.audit_logs tenant_id =
    verify_audit_integrity env sha256 s.memory.audit_logs tenant_id
  chained : ∀ hex now log,
    (postgres_logs.append_audit_log env sha256 t hex now log).memory.audit_logs =
      (postgres_logs.append_audit_log env sha256 s hex now log).memory.audit_logs
  numbered : ∀ thread_id, next_seq t.memory thread_id = next_seq s.memory thread_id

theorem appended_logs (s : State) (hex now : String) (log : PyDict) :
    (postgres_logs.append_audit_log env sha256 s hex now log).memory.audit_logs =
      audit_logs.append_audit_log env sha256 s.memory.audit_logs hex now log := by
  unfold postgres_logs.append_audit_log audit_logs.append_audit_log
  simp

theorem undisturbed_of_same (hlogs : t.memory.audit_logs = s.memory.audit_logs)
    (hthreads : ∀ thread_id, thread_rows t.memory thread_id = thread_rows s.memory thread_id) :
    Undisturbed env sha256 s t where
  audit_logs := hlogs
  threads := hthreads
  verified tenant_id := by rw [hlogs]
  chained hex now log := by rw [appended_logs, appended_logs, hlogs]
  numbered thread_id := by unfold next_seq; rw [hthreads]

def reads : Move → Bool
  | .list_audit_logs_for_evaluation _ _ | .list_workflow_checkpoints _ _ _ => true
  | _ => false

/-- What the read finds in its table is what the memory has: the whole log, or
the whole thread. A thread that is not in the table stays as it is. -/
def FindsMemory (s : State) : Move → Prop
  | .list_audit_logs_for_evaluation evaluation_id tenant_id =>
    rows_for_evaluation s.audit_rows tenant_id evaluation_id = s.memory.audit_logs
  | .list_workflow_checkpoints thread_id tenant_id limit =>
    rows_for_thread s.checkpoint_rows thread_id tenant_id limit = [] ∨
      rows_for_thread s.checkpoint_rows thread_id tenant_id limit = thread_rows s.memory thread_id
  | _ => True

theorem finds_of_no_read {move : Move} (h : reads move = false) : FindsMemory s move := by
  cases move with
  | list_audit_logs_for_evaluation evaluation_id tenant_id => cases h
  | list_workflow_checkpoints thread_id tenant_id limit => cases h
  | _ => trivial

theorem thread_rows_put (memory : Memory) (thread_id other : String) (rows : List PyDict) :
    thread_rows (put_thread memory thread_id rows) other =
      if other = thread_id then rows else thread_rows memory other := by
  unfold thread_rows put_thread
  dsimp only
  rw [Dict.get?_set]
  split <;> rfl

theorem list_checkpoints_undisturbed_iff (thread_id tenant_id : String) (limit : Int) :
    Undisturbed env sha256 s (list_workflow_checkpoints s thread_id tenant_id limit).1 ↔
      FindsMemory s (.list_workflow_checkpoints thread_id tenant_id limit) := by
  unfold list_workflow_checkpoints FindsMemory
  dsimp only
  generalize rows_for_thread s.checkpoint_rows thread_id tenant_id limit = loaded
  by_cases hloaded : loaded = []
  · rw [if_neg (not_not.2 hloaded)]
    exact ⟨fun _ => .inl hloaded, fun _ => undisturbed_of_same rfl fun _ => rfl⟩
  · rw [if_pos hloaded, or_iff_right hloaded]
    constructor
    · intro h
      have hthread := h.threads thread_id
      rwa [thread_rows_put, if_pos rfl] at hthread
    · intro hsame
      refine undisturbed_of_same rfl fun other => ?_
      rw [thread_rows_put]
      split
      · rename_i heq
        rw [hsame, heq]
      · rfl

theorem read_undisturbed_iff (start : State) {move : Move} (hread : reads move = true) :
    Undisturbed env sha256 s ((machine env sha256 start).step s move).1 ↔ FindsMemory s move := by
  cases move with
  | list_audit_logs_for_evaluation evaluation_id tenant_id =>
    exact ⟨fun h => h.audit_logs, fun h => undisturbed_of_same h fun _ => rfl⟩
  | list_workflow_checkpoints thread_id tenant_id limit =>
    exact list_checkpoints_undisturbed_iff thread_id tenant_id limit
  | _ => cases hread

/-- In every run of appends, reads, saves and restarts, on any contents of the
database, each read leaves the log and the threads as they were exactly when
each read finds in its table what the memory has. -/
theorem reads_are_undisturbing_iff (start : State) (moves : List Move) :
    (∀ before move, before ++ [move] <+: moves → reads move = true →
      Undisturbed env sha256 ((machine env sha256 start).after before)
        ((machine env sha256 start).after (before ++ [move]))) ↔
      Throughout (machine env sha256 start) FindsMemory moves := by
  constructor
  · intro h before move hpart
    rcases hread : reads move with _ | _
    · exact finds_of_no_read hread
    · have hlast := h before move hpart hread
      rw [Machine.after_concat] at hlast
      exact (read_undisturbed_iff start hread).1 hlast
  · intro h before move hpart hread
    rw [Machine.after_concat]
    exact (read_undisturbed_iff start hread).2 (h before move hpart)

/-- A read that finds the memory changes nothing at all. -/
theorem read_keeps_state (start : State) {move : Move} (hread : reads move = true)
    (h : FindsMemory s move) : ((machine env sha256 start).step s move).1 = s := by
  cases move with
  | list_audit_logs_for_evaluation evaluation_id tenant_id =>
    have hfound : rows_for_evaluation s.audit_rows tenant_id evaluation_id = s.memory.audit_logs := h
    show (list_audit_logs_for_evaluation s evaluation_id tenant_id).1 = s
    unfold list_audit_logs_for_evaluation
    dsimp only
    rw [hfound]
  | list_workflow_checkpoints thread_id tenant_id limit =>
    have hfound : rows_for_thread s.checkpoint_rows thread_id tenant_id limit = [] ∨
        rows_for_thread s.checkpoint_rows thread_id tenant_id limit =
          thread_rows s.memory thread_id := h
    show (list_workflow_checkpoints s thread_id tenant_id limit).1 = s
    unfold list_workflow_checkpoints
    dsimp only
    split
    · rename_i hloaded
      have h := hfound.resolve_left hloaded
      have hget : s.memory.workflow_checkpoints.get? thread_id =
          some (rows_for_thread s.checkpoint_rows thread_id tenant_id limit) := by
        rw [h] at hloaded ⊢
        unfold thread_rows at hloaded ⊢
        cases hrows : s.memory.workflow_checkpoints.get? thread_id with
        | none =>
          rw [hrows] at hloaded
          exact absurd rfl hloaded
        | some rows => rfl
      rw [put_thread, Dict.set_same _ hget]
    · rfl
  | _ => cases hread

/-- Then the run is as if no read had been made. -/
theorem reads_can_be_left_out (start : State) (moves : List Move)
    (h : Throughout (machine env sha256 start) FindsMemory moves) :
    (machine env sha256 start).after moves =
      (machine env sha256 start).after (moves.filter fun move => !reads move) := by
  have hrun : ∀ before, before <+: moves → (machine env sha256 start).after before =
      (machine env sha256 start).after (before.filter fun move => !reads move) := by
    refine along rfl fun before move hpart hsame => ?_
    rw [List.filter_append, Machine.after_concat]
    rcases hread : reads move with _ | _
    · rw [List.filter_cons_of_pos (by rw [hread]; rfl), List.filter_nil, Machine.after_concat, hsame]
    · rw [List.filter_cons_of_neg (by rw [hread]; decide), List.filter_nil, List.append_nil,
        read_keeps_state start hread (h before move hpart), hsame]
  exact hrun moves (List.prefix_refl _)

/-! An empty database, and two evaluations of a tenant with one entry each. -/

def empty_state : State := ⟨Memory.empty, Table.empty, Table.empty, none⟩

def entry (evaluation_id : String) : PyDict :=
  [("tenant_id", .str "tenant"), ("evaluation_id", .str evaluation_id)]

def node (name : String) : CheckpointArgs :=
  ⟨"thr", "job", "tenant", name, "succeeded", []⟩

def two_of_each : List Move :=
  [.append_audit_log "a" "1" (entry "ev_a"), .append_audit_log "b" "2" (entry "ev_b"),
    .append_workflow_checkpoint "a" "1" (node "load_context"),
    .append_workflow_checkpoint "b" "2" (node "retrieve_evidence")]

/-- A read of the second evaluation leaves its entry alone in the log, so that
the log does not verify, and a read of the first checkpoint of the thread gives
the number 2 again. -/
theorem reads_cut_log_and_thread :
    let m := machine calm_env id empty_state
    let log_read := two_of_each ++ [.list_audit_logs_for_evaluation "ev_b" "tenant"]
    let thread_read := two_of_each ++ [.list_workflow_checkpoints "thr" "tenant" 1]
    ¬ Undisturbed calm_env id (m.after two_of_each) (m.after log_read) ∧
      (verify_audit_integrity calm_env id (m.after two_of_each).memory.audit_logs none).isValid =
        true ∧
      (verify_audit_integrity calm_env id (m.after log_read).memory.audit_logs none).isValid =
        false ∧
      next_seq (m.after two_of_each).memory "thr" = 3 ∧
      next_seq (m.after thread_read).memory "thr" = 2 := by
  have hbroken : (verify_audit_integrity calm_env id ((machine calm_env id empty_state).after
      two_of_each).memory.audit_logs none).isValid = true ∧
    (verify_audit_integrity calm_env id ((machine calm_env id empty_state).after (two_of_each ++
      [.list_audit_logs_for_evaluation "ev_b" "tenant"])).memory.audit_logs none).isValid = false := by
    decide +kernel
  refine ⟨fun h => ?_, hbroken.1, hbroken.2, by decide +kernel, by decide +kernel⟩
  have hsame := congrArg Integrity.isValid (h.verified none)
  rw [hbroken.1, hbroken.2] at hsame
  cases hsame

end bid_evaluation.read_laws
