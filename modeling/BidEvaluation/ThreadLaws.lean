-- The law of sequence numbers: the numbers of a thread increase along it
-- exactly when each new row finds the newest row where its number comes from.
import BidEvaluation.CheckpointStore
import BidEvaluation.Lib.SortedWindow
import BidEvaluation.Operations

open dict_lib lockstep sorted_window bid_evaluation.values bid_evaluation.checkpoint_store
open bid_evaluation.postgres_logs (Memory CheckpointArgs thread_rows put_thread in_memory_list
  next_seq next_workflow_seq seq_of is_langgraph text? tenant_of)
open bid_evaluation.core (Env)
open bid_evaluation.operations (calm_env)

namespace bid_evaluation.thread_laws

variable {env : Env} {memory : Memory}

/-! ## What a row says -/

@[simp] theorem get_set (d : PyDict) (key a : String) (v : PyVal) :
    (d.set key v).get a = if a = key then v else d.get a := by
  unfold PyDict.get PyDict.getD PyDict.set
  rw [lookupEntry_setEntry]
  split <;> rfl

@[simp] theorem getD_set (d : PyDict) (key a : String) (v fallback : PyVal) :
    (d.set key v).getD a fallback = if a = key then v else d.getD a fallback := by
  unfold PyDict.getD PyDict.set
  rw [lookupEntry_setEntry]
  split <;> rfl

@[simp] theorem langgraph_row_seq (record : PyDict) (checkpoint_id : String) (seq : Int) :
    seq_of (langgraph_row record checkpoint_id seq) = seq := by
  simp [seq_of, langgraph_row, PyVal.toInt]

@[simp] theorem workflow_checkpoint_seq (memory : Memory) (hex now : String) (args : CheckpointArgs) :
    seq_of (workflow_checkpoint memory hex now args) = next_seq memory args.thread_id := rfl

theorem name_of_truthy {record : PyDict} {key : String} (h : name_of env record key ≠ "") :
    (record.get key).toStr env.repr = name_of env record key := by
  unfold name_of PyVal.or at *
  split at h
  · rename_i htrue
    rw [if_pos htrue]
  · exact absurd rfl h

/-- The row goes to the thread that the record names. -/
theorem langgraph_row_thread {record : PyDict} (h : name_of env record "thread_id" ≠ "")
    (checkpoint_id : String) (seq : Int) :
    ((langgraph_row record checkpoint_id seq).get "thread_id").toStr env.repr =
      name_of env record "thread_id" := by
  rw [← name_of_truthy h]
  simp [langgraph_row]

/-! ## The rows of a thread -/

theorem thread_rows_put (memory : Memory) (thread_id other : String) (rows : List PyDict) :
    thread_rows (put_thread memory thread_id rows) other =
      if other = thread_id then rows else thread_rows memory other := by
  unfold thread_rows put_thread
  dsimp only
  rw [Dict.get?_set]
  split <;> rfl

/-- An append puts the row at the end of its thread. -/
theorem thread_rows_append (memory : Memory) {thread_id : String} {row : PyDict}
    (h : (row.get "thread_id").toStr env.repr = thread_id) (other : String) :
    thread_rows (append env memory row).1 other =
      if other = thread_id then thread_rows memory thread_id ++ [row] else thread_rows memory other := by
  unfold append
  rw [h]
  exact thread_rows_put memory thread_id other _

theorem thread_rows_delete (memory : Memory) (thread_id other : String) :
    thread_rows (checkpoint_store.delete_langgraph_checkpoints memory thread_id) other =
      if other = thread_id then (thread_rows memory thread_id).filter fun item => !is_langgraph item
      else thread_rows memory other := by
  unfold checkpoint_store.delete_langgraph_checkpoints
  rcases hrows : memory.workflow_checkpoints.get? thread_id with _ | rows
  · dsimp only
    split
    · rename_i heq
      rw [heq]
      simp [thread_rows, hrows]
    · rfl
  · rw [thread_rows_put]
    simp [thread_rows, hrows]

def of_tenant (tenant_id : String) (item : PyDict) : Bool :=
  text? (item.get "tenant_id") = some tenant_id

def tenant_rows (memory : Memory) (thread_id tenant_id : String) : List PyDict :=
  (thread_rows memory thread_id).filter (of_tenant tenant_id)

theorem in_memory_list_eq (memory : Memory) (thread_id tenant_id : String) :
    in_memory_list memory thread_id tenant_id 1000 =
      ((tenant_rows memory thread_id tenant_id).insertionSort fun a b => seq_of a ≤ seq_of b).take 1000 :=
  rfl

/-! ## Runs -/

inductive Move where
  | append_workflow_checkpoint (hex now : String) (args : CheckpointArgs)
  | upsert_langgraph_checkpoint (record : PyDict)
  | delete_langgraph_checkpoints (thread_id : String)

def act (env : Env) (memory : Memory) : Move → Memory
  | .append_workflow_checkpoint hex now args =>
    (checkpoint_store.append_workflow_checkpoint env memory hex now args).1
  | .upsert_langgraph_checkpoint record =>
    match checkpoint_store.upsert_langgraph_checkpoint env memory record with
    | .ok (memory, _) => memory
    | .error _ => memory
  | .delete_langgraph_checkpoints thread_id =>
    checkpoint_store.delete_langgraph_checkpoints memory thread_id

/-- The store from its start. -/
def machine (env : Env) : Machine Memory Move Unit where
  start := Memory.empty
  step memory move := (act env memory move, ())

/-- The rows of a thread stand in the order in which they were made. -/
def Ordered (memory : Memory) : Prop :=
  ∀ thread_id, Increasing seq_of (thread_rows memory thread_id)

/-- Every record that is upserted has an id that its thread does not have. -/
def NewId (env : Env) (memory : Memory) : Move → Prop
  | .upsert_langgraph_checkpoint record =>
    ∀ item ∈ thread_rows memory (name_of env record "thread_id"),
      text? (item.get "langgraph_checkpoint_id") ≠ some (name_of env record "checkpoint_id")
  | _ => True

/-- The newest row of the thread is where the next number comes from: for an
append, its number is not above the number of rows. For a record, it is a row
of the same tenant, and the tenant has no more than 1000 rows in the thread. -/
def FollowsNewest (env : Env) (memory : Memory) : Move → Prop
  | .append_workflow_checkpoint _ _ args =>
    ∀ last, (thread_rows memory args.thread_id).getLast? = some last →
      seq_of last ≤ (thread_rows memory args.thread_id).length
  | .upsert_langgraph_checkpoint record =>
    name_of env record "thread_id" = "" ∨ name_of env record "checkpoint_id" = "" ∨
      ∀ last, (thread_rows memory (name_of env record "thread_id")).getLast? = some last →
        of_tenant (tenant_of env record) last = true ∧
          (tenant_rows memory (name_of env record "thread_id") (tenant_of env record)).length ≤ 1000
  | .delete_langgraph_checkpoints _ => True

/-! ## The number of a new row -/

/-- Every number that is handed out is at least 1. -/
def Numbered (memory : Memory) : Prop :=
  ∀ thread_id, ∀ item ∈ thread_rows memory thread_id, 1 ≤ seq_of item

theorem next_seq_pos (memory : Memory) (thread_id : String) : 1 ≤ next_seq memory thread_id := by
  unfold next_seq
  omega

/-- On an ordered thread the next number of a tenant comes from the last of its
first 1000 rows. -/
theorem next_workflow_seq_eq {thread_id : String} (tenant_id : String)
    (h : Increasing seq_of (thread_rows memory thread_id)) :
    next_workflow_seq memory thread_id tenant_id =
      ((((tenant_rows memory thread_id tenant_id).take 1000).getLast?).map seq_of).getD 0 + 1 := by
  have hrows : Increasing seq_of (tenant_rows memory thread_id tenant_id) := h.filter _
  have hwindow := List.Pairwise.sublist (List.take_sublist 1000 _) hrows
  unfold next_workflow_seq
  rw [in_memory_list_eq, hrows.sort_eq]
  generalize (tenant_rows memory thread_id tenant_id).take 1000 = window at hwindow
  rcases window with _ | ⟨first, rest⟩
  · rfl
  · rcases hlast : (first :: rest).getLast? with _ | last
    · simp at hlast
    · rw [List.map_cons]
      dsimp only [Option.map_some, Option.getD_some]
      rw [Increasing.foldl_max hwindow hlast]

/-- The next number of a tenant is above the newest row exactly when that row
is the last of the first 1000 rows of the tenant. -/
theorem newest_lt_next_iff {thread_id tenant_id : String} {last : PyDict}
    (h : Increasing seq_of (thread_rows memory thread_id)) (hnumbered : Numbered memory)
    (hlast : (thread_rows memory thread_id).getLast? = some last) :
    seq_of last < next_workflow_seq memory thread_id tenant_id ↔
      of_tenant tenant_id last = true ∧ (tenant_rows memory thread_id tenant_id).length ≤ 1000 := by
  rw [next_workflow_seq_eq tenant_id h]
  obtain ⟨before, hrows⟩ := List.getLast?_eq_some_iff.1 hlast
  have hin : last ∈ thread_rows memory thread_id := List.mem_of_getLast? hlast
  have hfilter : tenant_rows memory thread_id tenant_id =
      before.filter (of_tenant tenant_id) ++ [last].filter (of_tenant tenant_id) := by
    unfold tenant_rows
    rw [hrows, List.filter_append]
  constructor
  · intro hlt
    rcases hw : ((tenant_rows memory thread_id tenant_id).take 1000).getLast? with _ | top
    · have := hnumbered thread_id last hin
      rw [hw] at hlt
      simp only [Option.map_none, Option.getD_none] at hlt
      omega
    · rw [hw] at hlt
      simp only [Option.map_some, Option.getD_some] at hlt
      have htop := List.mem_of_mem_take (List.mem_of_getLast? hw)
      have htop_in : top ∈ thread_rows memory thread_id := List.mem_of_mem_filter htop
      have heq : top = last := by
        apply h.eq_of_key htop_in hin
        have := h.le_last hlast htop_in
        omega
      subst heq
      have htenant := List.of_mem_filter htop
      refine ⟨htenant, ?_⟩
      -- past 1000 rows of the tenant the newest one is not among the first
      by_contra hlong
      rw [List.filter_cons_of_pos htenant, List.filter_nil] at hfilter
      rw [hfilter, List.length_append, List.length_singleton] at hlong
      rw [hfilter, List.take_append_of_le_length (by omega)] at hw
      rw [hrows, increasing_concat] at h
      have := h.2 top (List.mem_of_mem_filter (List.mem_of_mem_take (List.mem_of_getLast? hw)))
      omega
  · rintro ⟨htenant, hshort⟩
    rw [List.take_of_length_le hshort, hfilter, List.filter_cons_of_pos htenant, List.filter_nil,
      List.getLast?_concat]
    exact Int.lt_succ _

theorem next_workflow_seq_pos {thread_id : String} (tenant_id : String)
    (h : Increasing seq_of (thread_rows memory thread_id)) (hnumbered : Numbered memory) :
    1 ≤ next_workflow_seq memory thread_id tenant_id := by
  rw [next_workflow_seq_eq tenant_id h]
  rcases hw : ((tenant_rows memory thread_id tenant_id).take 1000).getLast? with _ | top
  · simp
  · have htop := List.mem_of_mem_take (List.mem_of_getLast? hw)
    have := hnumbered thread_id top (List.mem_of_mem_filter htop)
    simp only [Option.map_some, Option.getD_some]
    omega

/-- The row is the record of LangGraph with this id. -/
def is_record (tenant_id checkpoint_id : String) (checkpoint_ns : Option String) (item : PyDict) : Bool :=
  of_tenant tenant_id item && (is_langgraph item && in_namespace checkpoint_ns item) &&
    decide (text? (item.get "langgraph_checkpoint_id") = some checkpoint_id)

theorem record_of_found {thread_id tenant_id checkpoint_id : String} {checkpoint_ns : Option String}
    {record : PyDict} (hid : checkpoint_id ≠ "")
    (h : get_langgraph_checkpoint_record memory thread_id tenant_id (some checkpoint_id) checkpoint_ns =
      some record) :
    ∃ item ∈ thread_rows memory thread_id,
      is_record tenant_id checkpoint_id checkpoint_ns item = true := by
  unfold get_langgraph_checkpoint_record at h
  dsimp only at h
  rw [if_neg hid] at h
  have hsame := List.find?_some h
  have hin := List.mem_of_find?_eq_some h
  unfold list_langgraph_checkpoints at hin
  rw [List.mem_insertionSort, List.mem_map] at hin
  obtain ⟨item, hitem, rfl⟩ := hin
  have hkind := List.of_mem_filter hitem
  replace hitem := List.mem_of_mem_filter hitem
  rw [in_memory_list_eq] at hitem
  replace hitem := List.mem_of_mem_take hitem
  rw [List.mem_insertionSort] at hitem
  refine ⟨item, List.mem_of_mem_filter hitem, ?_⟩
  unfold is_record
  rw [List.of_mem_filter hitem, hkind]
  simpa [as_langgraph] using hsame

/-- No row of the thread is the record, so the record gets a new number. -/
theorem langgraph_seq_none {record : PyDict} (hid : name_of env record "checkpoint_id" ≠ "")
    (hnone : ∀ item ∈ thread_rows memory (name_of env record "thread_id"),
      is_record (tenant_of env record) (name_of env record "checkpoint_id")
        (text? (record.getD "checkpoint_ns" (.str ""))) item = false) :
    langgraph_seq env memory record =
      next_workflow_seq memory (name_of env record "thread_id") (tenant_of env record) := by
  unfold langgraph_seq
  dsimp only
  split
  · rename_i hfound
    obtain ⟨item, hin, hitem⟩ := record_of_found hid hfound
    rw [hnone item hin] at hitem
    cases hitem
  · rfl

theorem langgraph_seq_new {record : PyDict} (hid : name_of env record "checkpoint_id" ≠ "")
    (hnew : NewId env memory (.upsert_langgraph_checkpoint record)) :
    langgraph_seq env memory record =
      next_workflow_seq memory (name_of env record "thread_id") (tenant_of env record) := by
  apply langgraph_seq_none hid
  intro item hitem
  unfold is_record
  rw [decide_eq_false (hnew item hitem), Bool.and_false]

/-! ## One step -/

/-- `memory'` has one row more than `memory`, at the end of a thread. -/
def OneMore (memory memory' : Memory) (thread_id : String) (row : PyDict) : Prop :=
  ∀ other, thread_rows memory' other =
    if other = thread_id then thread_rows memory thread_id ++ [row] else thread_rows memory other

theorem OneMore.ordered_iff {memory' : Memory} {thread_id : String} {row : PyDict}
    (h : OneMore memory memory' thread_id row) (hordered : Ordered memory) :
    Ordered memory' ↔
      ∀ last, (thread_rows memory thread_id).getLast? = some last → seq_of last < seq_of row := by
  rw [← Increasing.concat_iff (hordered thread_id)]
  constructor
  · intro hnext
    have := hnext thread_id
    rwa [h thread_id, if_pos rfl] at this
  · intro hthread other
    rw [h other]
    split
    · exact hthread
    · exact hordered other

theorem OneMore.numbered {memory' : Memory} {thread_id : String} {row : PyDict}
    (h : OneMore memory memory' thread_id row) (hnumbered : Numbered memory)
    (hrow : 1 ≤ seq_of row) : Numbered memory' := by
  intro other item hitem
  rw [h other] at hitem
  split at hitem
  · rcases List.mem_append.1 hitem with hin | heq
    · exact hnumbered thread_id item hin
    · rw [List.mem_singleton.1 heq]
      exact hrow
  · exact hnumbered other item hitem

theorem append_one_more (memory : Memory) (hex now : String) (args : CheckpointArgs) :
    OneMore memory (checkpoint_store.append_workflow_checkpoint env memory hex now args).1
      args.thread_id (workflow_checkpoint memory hex now args) :=
  thread_rows_append memory rfl

theorem upsert_one_more {record : PyDict} (hthread : name_of env record "thread_id" ≠ "")
    (hid : name_of env record "checkpoint_id" ≠ "") :
    OneMore memory (act env memory (.upsert_langgraph_checkpoint record))
      (name_of env record "thread_id")
      (langgraph_row record (name_of env record "checkpoint_id") (langgraph_seq env memory record)) := by
  unfold act checkpoint_store.upsert_langgraph_checkpoint
  dsimp only
  rw [if_neg (not_or.2 ⟨hthread, hid⟩)]
  exact thread_rows_append memory (langgraph_row_thread hthread _ _)

theorem upsert_invalid {record : PyDict}
    (h : name_of env record "thread_id" = "" ∨ name_of env record "checkpoint_id" = "") :
    act env memory (.upsert_langgraph_checkpoint record) = memory := by
  unfold act checkpoint_store.upsert_langgraph_checkpoint
  dsimp only
  rw [if_pos h]

theorem delete_sublist (memory : Memory) (thread_id other : String) :
    (thread_rows (act env memory (.delete_langgraph_checkpoints thread_id)) other).Sublist
      (thread_rows memory other) := by
  unfold act
  rw [thread_rows_delete]
  split
  · rename_i heq
    rw [heq]
    exact List.filter_sublist
  · exact List.Sublist.refl _

theorem step_numbered {move : Move} (hnumbered : Numbered memory) (hordered : Ordered memory)
    (hnew : NewId env memory move) : Numbered (act env memory move) := by
  cases move with
  | append_workflow_checkpoint hex now args =>
    exact (append_one_more memory hex now args).numbered hnumbered (next_seq_pos memory _)
  | upsert_langgraph_checkpoint record =>
    by_cases hinvalid : name_of env record "thread_id" = "" ∨ name_of env record "checkpoint_id" = ""
    · rw [upsert_invalid hinvalid]
      exact hnumbered
    · obtain ⟨hthread, hid⟩ := not_or.1 hinvalid
      apply (upsert_one_more hthread hid).numbered hnumbered
      rw [langgraph_row_seq, langgraph_seq_new hid hnew]
      exact next_workflow_seq_pos _ (hordered _) hnumbered
  | delete_langgraph_checkpoints thread_id =>
    intro other item hitem
    exact hnumbered other item ((delete_sublist memory thread_id other).subset hitem)

theorem step_ordered_iff {move : Move} (hnumbered : Numbered memory) (hordered : Ordered memory)
    (hnew : NewId env memory move) :
    Ordered (act env memory move) ↔ FollowsNewest env memory move := by
  cases move with
  | append_workflow_checkpoint hex now args =>
    unfold act
    rw [(append_one_more memory hex now args).ordered_iff hordered, workflow_checkpoint_seq]
    unfold next_seq FollowsNewest
    simp only [Int.lt_add_one_iff]
  | upsert_langgraph_checkpoint record =>
    unfold FollowsNewest
    dsimp only
    rw [← or_assoc]
    by_cases hinvalid : name_of env record "thread_id" = "" ∨ name_of env record "checkpoint_id" = ""
    · rw [upsert_invalid hinvalid]
      exact iff_of_true hordered (.inl hinvalid)
    · obtain ⟨hthread, hid⟩ := not_or.1 hinvalid
      rw [(upsert_one_more hthread hid).ordered_iff hordered, langgraph_row_seq,
        langgraph_seq_new hid hnew, or_iff_right hinvalid]
      constructor
      · intro h last hlast
        exact (newest_lt_next_iff (hordered _) hnumbered hlast).1 (h last hlast)
      · intro h last hlast
        exact (newest_lt_next_iff (hordered _) hnumbered hlast).2 (h last hlast)
  | delete_langgraph_checkpoints thread_id =>
    refine iff_of_true (fun other => ?_) trivial
    exact List.Pairwise.sublist (delete_sublist memory thread_id other) (hordered other)

/-- In every run in which the upserted records have new ids, the numbers of
each thread are different and larger the later a row was made, exactly when
each new row finds the newest row where its number comes from. -/
theorem numbers_order_threads_iff (moves : List Move) (hnew : Throughout (machine env) (NewId env) moves) :
    (∀ before, before <+: moves → Ordered ((machine env).after before)) ↔
      Throughout (machine env) (FollowsNewest env) moves := by
  have hstart : Ordered (machine env).start ∧ Numbered (machine env).start :=
    ⟨fun _ => List.Pairwise.nil, fun _ _ hitem => absurd hitem List.not_mem_nil⟩
  constructor
  · intro hordered
    have hnumbered := along (P := fun before => Numbered ((machine env).after before)) hstart.2
      fun before move hpart h => by
        rw [Machine.after_concat]
        exact step_numbered h (hordered before ((List.prefix_append before [move]).trans hpart))
          (hnew before move hpart)
    intro before move hpart
    have hbefore := (List.prefix_append before [move]).trans hpart
    have hnext := hordered (before ++ [move]) hpart
    rw [Machine.after_concat] at hnext
    exact (step_ordered_iff (hnumbered before hbefore) (hordered before hbefore)
      (hnew before move hpart)).1 hnext
  · intro hfollows
    have hboth := along (P := fun before =>
        Ordered ((machine env).after before) ∧ Numbered ((machine env).after before)) hstart
      fun before move hpart h => by
        rw [Machine.after_concat]
        have hmove := hnew before move hpart
        exact ⟨(step_ordered_iff h.2 h.1 hmove).2 (hfollows before move hpart),
          step_numbered h.2 h.1 hmove⟩
    exact fun before hpart => (hboth before hpart).1

/-! ## Two runs -/

def node_move : Move :=
  .append_workflow_checkpoint "a" "t"
    { thread_id := "thread_1", job_id := "job_1", tenant_id := "tenant_default", node := "job",
      status := "running", payload := [] }

def record_move (checkpoint_id : String) : Move :=
  .upsert_langgraph_checkpoint [("thread_id", .str "thread_1"), ("tenant_id", .str "tenant_default"),
    ("checkpoint_id", .str checkpoint_id)]

theorem new_id_iff (checkpoint_id : String) :
    NewId calm_env memory (record_move checkpoint_id) ↔
      ∀ item ∈ thread_rows memory "thread_1",
        text? (item.get "langgraph_checkpoint_id") ≠ some checkpoint_id := by
  have hid : name_of calm_env [("thread_id", .str "thread_1"), ("tenant_id", .str "tenant_default"),
      ("checkpoint_id", .str checkpoint_id)] "checkpoint_id" = checkpoint_id := by
    by_cases h : checkpoint_id = ""
    · rw [h]
      decide
    · simp [name_of, PyDict.get, PyDict.getD, lookupEntry, PyVal.or, PyVal.truthy, PyVal.toStr, h]
  unfold NewId record_move
  dsimp only
  rw [hid]
  rfl

theorem node_then_record_is_ordered :
    Ordered ((machine calm_env).after [node_move, record_move "a"]) :=
  (numbers_order_threads_iff [node_move, record_move "a"]
    (throughout_concat [node_move]
      (throughout_concat [] (throughout_nil _ _) trivial) ((new_id_iff "a").2 (by decide)))).2
    (throughout_concat [node_move]
      (throughout_concat [] (throughout_nil _ _) (by intro last hlast; cases hlast))
      (.inr (.inr (by intro last hlast; cases hlast; decide)))) _ (List.prefix_refl _)

/-- Two records are deleted between two rows of the workflow. -/
def deleted_between : List Move :=
  [node_move, record_move "a", node_move, record_move "b",
    .delete_langgraph_checkpoints "thread_1", node_move]

/-- The last row gets the number that the row before it has. -/
theorem number_is_given_twice :
    Throughout (machine calm_env) (NewId calm_env) deleted_between ∧
      ¬Ordered ((machine calm_env).after deleted_between) := by
  constructor
  · refine throughout_concat [_, _, _, _, _] (throughout_concat [_, _, _, _] (throughout_concat
      [_, _, _] (throughout_concat [_, _] (throughout_concat [_] (throughout_concat []
        (throughout_nil _ _) trivial) ?_) trivial) ?_) trivial) trivial
    · exact (new_id_iff "a").2 (by decide)
    · exact (new_id_iff "b").2 (by decide)
  · intro h
    have hseqs : (thread_rows ((machine calm_env).after deleted_between) "thread_1").map seq_of =
        [1, 3, 3] := by decide
    have := List.pairwise_map.2 (h "thread_1")
    rw [hseqs] at this
    simp at this

end bid_evaluation.thread_laws
