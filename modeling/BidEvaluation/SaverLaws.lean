-- The law of the checkpoint saver. Ideally it is a list of checkpoints, the
-- newest last, where a put replaces and a write adds to what is there. The
-- saver reads like that as long as no record is written a second time and none
-- falls behind the first 1000 rows.
import BidEvaluation.ThreadLaws

open dict_lib lockstep sorted_window bid_evaluation.values bid_evaluation.checkpoint_store
  bid_evaluation.thread_laws
open bid_evaluation.postgres_logs (Memory CheckpointArgs thread_rows put_thread in_memory_list
  next_seq next_workflow_seq seq_of is_langgraph text? tenant_of)
open bid_evaluation.core (Env)
open bid_evaluation.operations (calm_env)

namespace bid_evaluation.saver_laws

variable {env : Env} {lib : Langgraph} {memory : Memory}

/-! ## The ideal saver -/

structure Entry where
  thread_id : String
  tenant_id : String
  checkpoint_ns : String
  checkpoint_id : String
  parent_id : Option String
  checkpoint : PyDict
  metadata : PyVal
  pending_writes : List PyVal

/-- The entry is in the thread and namespace of the config. -/
def Entry.is_at (config : Config) (entry : Entry) : Bool :=
  entry.thread_id = config.thread_id ∧ entry.tenant_id = config.tenant ∧
    entry.checkpoint_ns = config.ns

def Entry.is_version (config : Config) (checkpoint_id : String) (entry : Entry) : Bool :=
  entry.is_at config && decide (entry.checkpoint_id = checkpoint_id)

def Entry.with_writes (config : Config) (checkpoint_id : String) (writes : List PyVal)
    (entry : Entry) : Entry :=
  if entry.is_version config checkpoint_id then
    { entry with pending_writes := entry.pending_writes ++ writes }
  else entry

@[simp] theorem with_writes_is_at (config other : Config) (checkpoint_id : String)
    (writes : List PyVal) (entry : Entry) :
    (entry.with_writes config checkpoint_id writes).is_at other = entry.is_at other := by
  unfold Entry.with_writes
  split <;> rfl

@[simp] theorem with_writes_id (config : Config) (checkpoint_id : String) (writes : List PyVal)
    (entry : Entry) :
    (entry.with_writes config checkpoint_id writes).checkpoint_id = entry.checkpoint_id := by
  unfold Entry.with_writes
  split <;> rfl

def Entry.tuple (config : Config) (entry : Entry) : CheckpointTuple where
  config :=
    { thread_id := config.thread_id, checkpoint_ns := some config.ns,
      tenant_id := some config.tenant, checkpoint_id := some entry.checkpoint_id }
  checkpoint := .dict entry.checkpoint
  metadata := entry.metadata
  parent_config := (entry.parent_id.filter fun parent => parent ≠ "").map fun parent =>
    { thread_id := config.thread_id, checkpoint_ns := some config.ns, tenant_id := none,
      checkpoint_id := some parent }
  pending_writes := .list entry.pending_writes

/-- The entries of the thread and namespace of a config, newest first. -/
def listed (entries : List Entry) (config : Config) : List Entry :=
  (entries.filter (Entry.is_at config)).reverse

def ideal_get (entries : List Entry) (config : Config) : Option CheckpointTuple :=
  let found :=
    match config.checkpoint_id with
    | some checkpoint_id =>
      if checkpoint_id = "" then (listed entries config).head?
      else (listed entries config).find? fun entry => entry.checkpoint_id = checkpoint_id
    | none => (listed entries config).head?
  found.map (Entry.tuple config)

def ideal_list (entries : List Entry) (config before : Option Config) (limit : Option Int) :
    List CheckpointTuple :=
  match config with
  | none => []
  | some config =>
    (list_filters (fun entry => some entry.checkpoint_id) config.checkpoint_id
      (before.bind Config.checkpoint_id) limit (listed entries config)).map (Entry.tuple config)

/-! ## Runs -/

inductive Move where
  | put (config : Config) (checkpoint : PyDict) (metadata : PyVal) (now : String)
  | put_writes (config : Config) (writes : List (String × PyVal)) (task_id now : String)
  | delete_thread (thread_id : String)
  | append_workflow_checkpoint (hex now : String) (args : CheckpointArgs)

def act (env : Env) (lib : Langgraph) (memory : Memory) : Move → Memory
  | .put config checkpoint metadata now => (put env lib memory config checkpoint metadata now).1
  | .put_writes config writes task_id now => (put_writes env memory config writes task_id now).1
  | .delete_thread thread_id => delete_thread memory thread_id
  | .append_workflow_checkpoint hex now args =>
    (checkpoint_store.append_workflow_checkpoint env memory hex now args).1

def machine (env : Env) (lib : Langgraph) : Machine Memory Move Unit where
  start := Memory.empty
  step memory move := (act env lib memory move, ())

/-- `str(id or "")`, as the store names a checkpoint. -/
def id_text (env : Env) (id : PyVal) : String := (id.or (.str "")).toStr env.repr

/-- A checkpoint without a thread or an id raises. -/
def ideal_put (env : Env) (lib : Langgraph) (entries : List Entry) (config : Config)
    (checkpoint : PyDict) (metadata : PyVal) : List Entry :=
  match lookupEntry checkpoint "id" with
  | none => entries
  | some id =>
    let checkpoint_id := id_text env id
    if config.thread_id = "" ∨ checkpoint_id = "" then entries
    else
      (entries.filter fun entry => !entry.is_version config checkpoint_id) ++
        [{ thread_id := config.thread_id, tenant_id := config.tenant, checkpoint_ns := config.ns,
           checkpoint_id := checkpoint_id, parent_id := config.checkpoint_id,
           checkpoint := checkpoint, metadata := lib.get_checkpoint_metadata config metadata,
           pending_writes := [] }]

def ideal_act (env : Env) (lib : Langgraph) (entries : List Entry) : Move → List Entry
  | .put config checkpoint metadata _ => ideal_put env lib entries config checkpoint metadata
  | .put_writes config writes task_id _ =>
    match config.checkpoint_id with
    | none => entries
    | some checkpoint_id =>
      entries.map (Entry.with_writes config checkpoint_id (writes.map (pending_write task_id)))
  | .delete_thread thread_id => entries.filter fun entry => entry.thread_id ≠ thread_id
  | .append_workflow_checkpoint _ _ _ => entries

def ideal (env : Env) (lib : Langgraph) : Machine (List Entry) Move Unit where
  start := []
  step entries move := (ideal_act env lib entries move, ())

/-- Every read gives what it gives ideally, and `list` has each checkpoint
once. -/
structure ReadsAs (lib : Langgraph) (memory : Memory) (entries : List Entry) : Prop where
  get : ∀ config, get_tuple lib memory config = ideal_get entries config
  list : ∀ config before limit,
    checkpoint_store.list lib memory config before limit = ideal_list entries config before limit
  once : ∀ config before limit,
    ((checkpoint_store.list lib memory config before limit).map
      fun found => found.config.checkpoint_id).Nodup

/-- The rows behind the first 1000. -/
def behind (rows : List PyDict) : List PyDict :=
  (rows.insertionSort fun a b => seq_of a ≤ seq_of b).drop 1000

/-- The thread has no record with this id. -/
def NoRecord (memory : Memory) (config : Config) (checkpoint_id : String) : Prop :=
  ∀ item ∈ thread_rows memory config.thread_id,
    is_record config.tenant checkpoint_id (some config.ns) item = false

/-- No record is written a second time, and no record is behind the first 1000
rows of its tenant in the thread. The empty tenant gets its numbers from the
rows of another tenant. -/
def WritesOnce (env : Env) (memory : Memory) : Move → Prop
  | .put config checkpoint _ _ =>
    ∀ id, lookupEntry checkpoint "id" = some id →
      config.thread_id = "" ∨ id_text env id = "" ∨
        config.tenant ≠ "" ∧ (tenant_rows memory config.thread_id config.tenant).length < 1000 ∧
          NoRecord memory config (id_text env id)
  | .put_writes config _ _ _ =>
    ∀ checkpoint_id, config.checkpoint_id = some checkpoint_id → NoRecord memory config checkpoint_id
  | .delete_thread _ => True
  | .append_workflow_checkpoint hex now args =>
    ∀ item ∈ behind (tenant_rows memory args.thread_id args.tenant_id ++
        [workflow_checkpoint memory hex now args]), is_langgraph item = false

/-! ## Records and entries -/

/-- The record says what the entry says. -/
structure Written (entry : Entry) (item : PyDict) : Prop where
  kind : is_langgraph item = true
  tenant : text? (item.get "tenant_id") = some entry.tenant_id
  ns : text? (item.getD "checkpoint_ns" (.str "")) = some entry.checkpoint_ns
  id : text? (item.get "langgraph_checkpoint_id") = some entry.checkpoint_id
  parent : item.get "parent_langgraph_checkpoint_id" = or_null entry.parent_id
  checkpoint : item.get "checkpoint" = .dict entry.checkpoint
  metadata : item.getD "metadata" (.dict []) = entry.metadata
  pending_writes : item.getD "pending_writes" (.list []) = .list entry.pending_writes

theorem or_null_text (text : Option String) : text? (or_null text) = text := by
  cases text <;> rfl

theorem or_null_truthy (text : Option String) :
    (or_null text).truthy = (text.filter fun parent => parent ≠ "").isSome := by
  rcases text with _ | text
  · rfl
  · by_cases h : text = "" <;> simp [or_null, PyVal.truthy, h]

theorem Written.tuple {entry : Entry} {item : PyDict} (h : Written entry item) (config : Config) :
    tuple_of config (as_langgraph item) = entry.tuple config := by
  have hparent : (as_langgraph item).get "parent_checkpoint_id" = or_null entry.parent_id := by
    simp [as_langgraph, h.parent]
  have hid : text? ((as_langgraph item).get "checkpoint_id") = some entry.checkpoint_id := by
    simp [as_langgraph, h.id]
  have hcheckpoint : (as_langgraph item).get "checkpoint" = .dict entry.checkpoint := by
    simp [as_langgraph, h.checkpoint]
  have hmetadata : (as_langgraph item).getD "metadata" (.dict []) = entry.metadata := by
    simp [as_langgraph, h.metadata]
  have hpending : (as_langgraph item).getD "pending_writes" (.list []) = .list entry.pending_writes := by
    simp [as_langgraph, h.pending_writes]
  unfold tuple_of Entry.tuple
  rw [hparent, hid, hcheckpoint, hmetadata, hpending]
  dsimp only
  rw [or_null_truthy, or_null_text]
  rcases entry.parent_id with _ | parent
  · rfl
  · by_cases hempty : parent = "" <;> simp [hempty]

/-- The memory has the records of the entries, oldest first, under numbers that
increase for each tenant, and none of them is behind the window. -/
structure Agrees (memory : Memory) (entries : List Entry) : Prop where
  written : ∀ thread_id,
    List.Forall₂ Written (entries.filter fun entry => entry.thread_id = thread_id)
      ((thread_rows memory thread_id).filter is_langgraph)
  increasing : ∀ thread_id tenant_id,
    Increasing seq_of ((tenant_rows memory thread_id tenant_id).filter is_langgraph)
  in_window : ∀ thread_id tenant_id,
    ∀ item ∈ behind (tenant_rows memory thread_id tenant_id), is_langgraph item = false

/-! ## Reads -/

theorem filter_related {α β : Type} {R : α → β → Prop} {l : List α} {l' : List β} {p : α → Bool}
    {q : β → Bool} (hpq : ∀ a b, R a b → p a = q b) (h : List.Forall₂ R l l') :
    List.Forall₂ R (l.filter p) (l'.filter q) :=
  List.rel_filter (fun a b hab => iff_of_eq (congrArg (· = true) (hpq a b hab))) h

theorem as_langgraph_seq (item : PyDict) : seq_of (as_langgraph item) = seq_of item := by
  simp [seq_of, as_langgraph]

/-- What the store lists is the records of the tenant and namespace, last first. -/
theorem Agrees.records {entries : List Entry} (h : Agrees memory entries)
    (thread_id tenant_id : String) (checkpoint_ns : Option String) :
    list_langgraph_checkpoints memory thread_id tenant_id checkpoint_ns =
      ((((thread_rows memory thread_id).filter is_langgraph).filter fun item =>
        of_tenant tenant_id item && in_namespace checkpoint_ns item).reverse).map as_langgraph := by
  have hsplit : (tenant_rows memory thread_id tenant_id).filter
        (fun item => is_langgraph item && in_namespace checkpoint_ns item) =
      ((tenant_rows memory thread_id tenant_id).filter is_langgraph).filter
        (in_namespace checkpoint_ns) := by
    rw [List.filter_filter]
    exact List.filter_congr fun item _ => Bool.and_comm _ _
  have hkeys : Increasing seq_of ((tenant_rows memory thread_id tenant_id).filter
      fun item => is_langgraph item && in_namespace checkpoint_ns item) := by
    rw [hsplit]
    exact (h.increasing thread_id tenant_id).filter _
  unfold list_langgraph_checkpoints
  dsimp only
  rw [in_memory_list_eq, filter_window hkeys fun item hitem => by
    rw [h.in_window thread_id tenant_id item hitem, Bool.false_and]]
  have hmapped : Increasing seq_of (((tenant_rows memory thread_id tenant_id).filter
      fun item => is_langgraph item && in_namespace checkpoint_ns item).map as_langgraph) := by
    apply List.pairwise_map.2
    simp only [as_langgraph_seq]
    exact hkeys
  rw [hmapped.sort_down, ← List.map_reverse]
  unfold tenant_rows
  rw [List.filter_filter, List.filter_filter]
  congr 3
  funext item
  cases is_langgraph item <;> cases of_tenant tenant_id item <;>
    cases in_namespace checkpoint_ns item <;> rfl

/-- The entries of a config, and the records that the store lists for it. -/
theorem Agrees.listed {entries : List Entry} (h : Agrees memory entries) (config : Config) :
    List.Forall₂ (fun entry record =>
        tuple_of config record = entry.tuple config ∧
          text? (record.get "checkpoint_id") = some entry.checkpoint_id)
      (listed entries config)
      (list_langgraph_checkpoints memory config.thread_id config.tenant (some config.ns)) := by
  have hfilter : entries.filter (Entry.is_at config) =
      (entries.filter fun entry => entry.thread_id = config.thread_id).filter
        fun entry => entry.tenant_id = config.tenant ∧ entry.checkpoint_ns = config.ns := by
    rw [List.filter_filter]
    apply List.filter_congr
    intro entry _
    simp only [Entry.is_at, ← Bool.decide_and, and_comm]
  rw [h.records]
  unfold saver_laws.listed
  rw [hfilter, List.forall₂_map_right_iff, List.forall₂_reverse_iff]
  refine (filter_related (fun entry item hitem => ?_) (h.written config.thread_id)).imp
    fun entry item hitem => ⟨hitem.tuple config, ?_⟩
  · simp [of_tenant, in_namespace, hitem.tenant, hitem.ns]
  · simp [as_langgraph, hitem.id]

theorem partner_of_mem {α β : Type} {R : α → β → Prop} {l : List α} {l' : List β} {a : α}
    (h : List.Forall₂ R l l') (ha : a ∈ l) : ∃ b ∈ l', R a b := by
  induction h with
  | nil => exact absurd ha List.not_mem_nil
  | cons hab _ ih =>
    rcases List.mem_cons.1 ha with rfl | hin
    · exact ⟨_, List.mem_cons_self, hab⟩
    · obtain ⟨b, hb, hboth⟩ := ih hin
      exact ⟨b, List.mem_cons_of_mem _ hb, hboth⟩

theorem map_related {α β γ : Type} {f : α → γ} {g : β → γ} {l : List α} {l' : List β}
    (h : List.Forall₂ (fun a b => g b = f a) l l') : l'.map g = l.map f := by
  induction h with
  | nil => rfl
  | cons hab _ ih => rw [List.map_cons, List.map_cons, hab, ih]

theorem list_filters_related {α β : Type} {R : α → β → Prop} {id : α → Option String}
    {id' : β → Option String} {l : List α} {l' : List β} (hid : ∀ a b, R a b → id a = id' b)
    (checkpoint_id before_id : Option String) (limit : Option Int) (h : List.Forall₂ R l l') :
    List.Forall₂ R (list_filters id checkpoint_id before_id limit l)
      (list_filters id' checkpoint_id before_id limit l') := by
  have hwanted : List.Forall₂ R (list_filters id checkpoint_id none none l)
      (list_filters id' checkpoint_id none none l') := by
    unfold list_filters
    rcases checkpoint_id with _ | wanted
    · exact h
    · dsimp only
      split
      · exact h
      · exact filter_related (fun a b hab => by rw [hid a b hab]) h
  have hbefore : List.Forall₂ R (list_filters id checkpoint_id before_id none l)
      (list_filters id' checkpoint_id before_id none l') := by
    unfold list_filters at *
    rcases before_id with _ | bound
    · exact hwanted
    · dsimp only at *
      split
      · exact hwanted
      · exact filter_related (fun a b hab => by rw [hid a b hab]) hwanted
  unfold list_filters at *
  rcases limit with _ | limit
  · exact hbefore
  · exact List.forall₂_take _ hbefore

theorem list_filters_sublist {α : Type} (id : α → Option String)
    (checkpoint_id before_id : Option String) (limit : Option Int) (l : List α) :
    (list_filters id checkpoint_id before_id limit l).Sublist l := by
  have hwanted : (list_filters id checkpoint_id none none l).Sublist l := by
    unfold list_filters
    rcases checkpoint_id with _ | wanted
    · exact List.Sublist.refl l
    · dsimp only
      split
      · exact List.Sublist.refl l
      · exact List.filter_sublist
  have hbefore : (list_filters id checkpoint_id before_id none l).Sublist l := by
    unfold list_filters at *
    rcases before_id with _ | bound
    · exact hwanted
    · dsimp only at *
      split
      · exact hwanted
      · exact List.filter_sublist.trans hwanted
  unfold list_filters at *
  rcases limit with _ | limit
  · exact hbefore
  · exact (List.take_sublist _ _).trans hbefore

/-- `get_tuple` gives the first of what `list` gives. -/
theorem first_of_filters {α : Type} (id : α → Option String) (checkpoint_id : Option String)
    (items : List α) :
    (match checkpoint_id with
      | some wanted =>
        if wanted = "" then items.head? else items.find? fun item => id item = some wanted
      | none => items.head?) = (list_filters id checkpoint_id none none items).head? := by
  unfold list_filters
  rcases checkpoint_id with _ | wanted
  · rfl
  · dsimp only
    split
    · rfl
    · exact List.head?_filter.symm

theorem get_tuple_eq_first (memory : Memory) (config : Config) :
    get_tuple lib memory config = (list lib memory (some config) none none).head? := by
  unfold get_tuple list get_langgraph_checkpoint_record
  dsimp only
  rw [List.head?_map, Option.bind_none]
  exact congrArg (Option.map _) (first_of_filters _ _ _)

theorem ideal_get_eq_first (entries : List Entry) (config : Config) :
    ideal_get entries config = (ideal_list entries (some config) none none).head? := by
  unfold ideal_get ideal_list
  dsimp only
  rw [List.head?_map, Option.bind_none, ← first_of_filters]
  simp only [Option.some.injEq]

theorem Agrees.list_eq {entries : List Entry} (hlib : lib.ReadsConfig) (h : Agrees memory entries)
    (config before : Option Config) (limit : Option Int) :
    list lib memory config before limit = ideal_list entries config before limit := by
  have hids : lib.get_checkpoint_id = Config.checkpoint_id := funext hlib
  unfold list ideal_list
  rcases config with _ | config
  · rfl
  · dsimp only
    rw [hids]
    apply map_related
    exact (list_filters_related (fun entry record hboth => hboth.2.symm) _ _ limit
      (h.listed config)).imp fun entry record hboth => hboth.1

/-- No two entries are the same checkpoint. -/
def Distinct (entries : List Entry) : Prop :=
  entries.Pairwise fun a b =>
    ∀ config, a.is_at config = true → b.is_at config = true → a.checkpoint_id ≠ b.checkpoint_id

theorem Distinct.once {entries : List Entry} (h : Distinct entries) (config before : Option Config)
    (limit : Option Int) :
    ((ideal_list entries config before limit).map fun found => found.config.checkpoint_id).Nodup := by
  rcases config with _ | config
  · exact List.nodup_nil
  · have hlisted : ((listed entries config).map fun entry => some entry.checkpoint_id).Nodup := by
      unfold listed
      rw [List.map_reverse, List.nodup_reverse]
      apply List.pairwise_map.2
      apply List.pairwise_filter.2
      exact h.imp fun hne ha hb heq => hne config ha hb (Option.some.inj heq)
    unfold ideal_list
    rw [List.map_map]
    exact hlisted.sublist ((list_filters_sublist _ _ _ limit _).map _)

theorem Agrees.reads {entries : List Entry} (hlib : lib.ReadsConfig) (h : Agrees memory entries)
    (hdistinct : Distinct entries) : ReadsAs lib memory entries where
  get config := by rw [get_tuple_eq_first, ideal_get_eq_first, h.list_eq hlib]
  list config before limit := h.list_eq hlib config before limit
  once config before limit := by
    rw [h.list_eq hlib]
    exact hdistinct.once config before limit

/-! ## Writes -/

theorem OneMore.tenant_rows {memory' : Memory} {thread_id : String} {row : PyDict}
    (h : OneMore memory memory' thread_id row) (other tenant_id : String) :
    tenant_rows memory' other tenant_id =
      if other = thread_id ∧ of_tenant tenant_id row = true then
        tenant_rows memory thread_id tenant_id ++ [row]
      else tenant_rows memory other tenant_id := by
  unfold thread_laws.tenant_rows
  rw [h other]
  by_cases hother : other = thread_id
  · rw [if_pos hother, List.filter_append]
    by_cases htenant : of_tenant tenant_id row = true
    · rw [if_pos ⟨hother, htenant⟩, List.filter_cons_of_pos htenant, List.filter_nil]
    · rw [if_neg fun hboth => htenant hboth.2, List.filter_cons_of_neg htenant, List.filter_nil,
        List.append_nil, hother]
  · rw [if_neg hother, if_neg fun hboth => hother hboth.1]

/-- A row of the workflow that pushes no record out of the window. -/
theorem Agrees.with_row {entries : List Entry} {memory' : Memory} {thread_id tenant_id : String}
    {row : PyDict} (h : Agrees memory entries) (hmore : OneMore memory memory' thread_id row)
    (hkind : is_langgraph row = false) (htenant : text? (row.get "tenant_id") = some tenant_id)
    (hwindow : ∀ item ∈ behind (tenant_rows memory thread_id tenant_id ++ [row]),
      is_langgraph item = false) : Agrees memory' entries where
  written other := by
    rw [hmore other]
    split
    · rename_i heq
      rw [List.filter_append, List.filter_cons_of_neg (by simp [hkind]), List.filter_nil,
        List.append_nil, ← heq]
      exact h.written other
    · exact h.written other
  increasing other tenant := by
    rw [OneMore.tenant_rows hmore]
    split
    · rw [List.filter_append, List.filter_cons_of_neg (by simp [hkind]), List.filter_nil,
        List.append_nil]
      exact h.increasing thread_id tenant
    · exact h.increasing other tenant
  in_window other tenant := by
    rw [OneMore.tenant_rows hmore]
    split
    · rename_i hboth
      have hsame : tenant_id = tenant := by simpa [of_tenant, htenant] using hboth.2
      rw [← hsame]
      exact hwindow
    · exact h.in_window other tenant

/-- A new record above the records of its tenant, when the tenant has room. -/
theorem Agrees.with_record {entries : List Entry} {entry : Entry} {memory' : Memory} {row : PyDict}
    (h : Agrees memory entries) (hmore : OneMore memory memory' entry.thread_id row)
    (hwritten : Written entry row)
    (hlast : ∀ item ∈ tenant_rows memory entry.thread_id entry.tenant_id, seq_of item < seq_of row)
    (hroom : (tenant_rows memory entry.thread_id entry.tenant_id).length < 1000) :
    Agrees memory' (entries ++ [entry]) where
  written other := by
    rw [hmore other, List.filter_append]
    by_cases hother : other = entry.thread_id
    · rw [if_pos hother, List.filter_append, List.filter_cons_of_pos hwritten.kind, List.filter_nil,
        List.filter_cons_of_pos (by simp [hother]), List.filter_nil, ← hother]
      exact List.rel_append (h.written other) (.cons hwritten .nil)
    · rw [if_neg hother, List.filter_cons_of_neg (by simpa using Ne.symm hother), List.filter_nil,
        List.append_nil]
      exact h.written other
  increasing other tenant := by
    rw [OneMore.tenant_rows hmore]
    split
    · rename_i hboth
      have hsame : entry.tenant_id = tenant := by simpa [of_tenant, hwritten.tenant] using hboth.2
      rw [List.filter_append, List.filter_cons_of_pos hwritten.kind, List.filter_nil,
        increasing_concat]
      refine ⟨h.increasing entry.thread_id tenant, fun item hitem => ?_⟩
      rw [← hsame] at hitem
      exact hlast item (List.mem_of_mem_filter hitem)
    · exact h.increasing other tenant
  in_window other tenant := by
    rw [OneMore.tenant_rows hmore]
    split
    · rename_i hboth
      have hsame : entry.tenant_id = tenant := by simpa [of_tenant, hwritten.tenant] using hboth.2
      intro item hitem
      unfold behind at hitem
      rw [List.drop_eq_nil_of_le] at hitem
      · exact absurd hitem List.not_mem_nil
      · rw [List.length_insertionSort, List.length_append, List.length_singleton, ← hsame]
        omega
    · exact h.in_window other tenant

theorem Agrees.without_thread {entries : List Entry} (h : Agrees memory entries) (thread_id : String) :
    Agrees (delete_thread memory thread_id) (entries.filter fun entry => entry.thread_id ≠ thread_id) where
  written other := by
    unfold delete_thread
    rw [thread_rows_delete, List.filter_filter]
    by_cases hother : other = thread_id
    · rw [if_pos hother, List.filter_filter, List.filter_eq_nil_iff.2, List.filter_eq_nil_iff.2]
      · exact .nil
      · simp
      · simp [hother]
    · rw [if_neg hother, List.filter_congr fun entry _ => ?_]
      · exact h.written other
      · by_cases hthread : entry.thread_id = other
        · simp [hthread, hother]
        · simp [hthread]
  increasing other tenant := by
    unfold delete_thread tenant_rows
    rw [thread_rows_delete]
    split
    · rw [List.filter_filter, List.filter_filter, List.filter_eq_nil_iff.2]
      · exact .nil
      · simp +contextual
    · exact h.increasing other tenant
  in_window other tenant := by
    unfold delete_thread tenant_rows
    rw [thread_rows_delete]
    split
    · intro item hitem
      unfold behind at hitem
      replace hitem := List.mem_of_mem_drop hitem
      rw [List.mem_insertionSort] at hitem
      simpa using List.of_mem_filter (List.mem_of_mem_filter hitem)
    · exact h.in_window other tenant

/-- With fewer than 1000 rows, the next number is above all of them. -/
theorem lt_next_workflow_seq {thread_id tenant_id : String} {item : PyDict}
    (hroom : (tenant_rows memory thread_id tenant_id).length ≤ 1000)
    (hitem : item ∈ tenant_rows memory thread_id tenant_id) :
    seq_of item < next_workflow_seq memory thread_id tenant_id := by
  have hin : seq_of item ∈ (in_memory_list memory thread_id tenant_id 1000).map seq_of := by
    rw [in_memory_list_eq, List.take_of_length_le (by rwa [List.length_insertionSort])]
    exact List.mem_map_of_mem ((List.mem_insertionSort _).2 hitem)
  unfold next_workflow_seq
  generalize (in_memory_list memory thread_id tenant_id 1000).map seq_of = seqs at hin
  rcases seqs with _ | ⟨first, rest⟩
  · exact absurd hin List.not_mem_nil
  · exact Int.lt_add_one_of_le (le_foldl_max hin)

variable {config : Config} {checkpoint : PyDict} {metadata id : PyVal} {now : String}

theorem put_record_id :
    name_of env (put_record lib config id checkpoint metadata now) "checkpoint_id" = id_text env id := rfl

theorem put_record_thread :
    name_of env (put_record lib config id checkpoint metadata now) "thread_id" = config.thread_id := by
  have h : (put_record lib config id checkpoint metadata now).get "thread_id" =
      .str config.thread_id := rfl
  unfold name_of
  rw [h]
  by_cases hempty : config.thread_id = "" <;> simp [PyVal.or, PyVal.truthy, PyVal.toStr, hempty]

theorem put_record_tenant (htenant : config.tenant ≠ "") :
    tenant_of env (put_record lib config id checkpoint metadata now) = config.tenant := by
  have h : (put_record lib config id checkpoint metadata now).get "tenant_id" =
      .str config.tenant := rfl
  unfold postgres_logs.tenant_of
  rw [h]
  simp [PyVal.or, PyVal.truthy, PyVal.toStr, htenant]

/-- The entry that a put leaves. -/
def put_entry (env : Env) (lib : Langgraph) (config : Config) (id : PyVal) (checkpoint : PyDict)
    (metadata : PyVal) : Entry where
  thread_id := config.thread_id
  tenant_id := config.tenant
  checkpoint_ns := config.ns
  checkpoint_id := id_text env id
  parent_id := config.checkpoint_id
  checkpoint := checkpoint
  metadata := lib.get_checkpoint_metadata config metadata
  pending_writes := []

theorem put_row_written (seq : Int) :
    Written (put_entry env lib config id checkpoint metadata)
      (langgraph_row (put_record lib config id checkpoint metadata now) (id_text env id) seq) where
  kind := by simp [is_langgraph, langgraph_row, text?]
  tenant := by
    simp only [langgraph_row, get_set, if_neg, String.reduceEq, not_false_eq_true]
    rfl
  ns := by
    simp only [langgraph_row, getD_set, if_neg, String.reduceEq, not_false_eq_true]
    rfl
  id := by simp [langgraph_row, text?, put_entry]
  parent := by
    simp only [langgraph_row, get_set, if_neg, if_pos, String.reduceEq, not_false_eq_true]
    rfl
  checkpoint := by
    simp only [langgraph_row, get_set, if_neg, String.reduceEq, not_false_eq_true]
    rfl
  metadata := by
    simp only [langgraph_row, getD_set, if_neg, String.reduceEq, not_false_eq_true]
    rfl
  pending_writes := by
    simp only [langgraph_row, getD_set, if_neg, String.reduceEq, not_false_eq_true]
    rfl

/-! ## Steps -/

theorem put_no_id (h : lookupEntry checkpoint "id" = none) :
    act env lib memory (.put config checkpoint metadata now) = memory := by
  unfold act put
  dsimp only
  rw [h]

theorem put_invalid (hid : lookupEntry checkpoint "id" = some id)
    (h : config.thread_id = "" ∨ id_text env id = "") :
    act env lib memory (.put config checkpoint metadata now) = memory := by
  unfold act put upsert_langgraph_checkpoint
  dsimp only
  rw [hid]
  dsimp only
  rw [put_record_thread, put_record_id, if_pos h]

theorem put_one_more (lib : Langgraph) (memory : Memory) (metadata : PyVal) (now : String)
    (hid : lookupEntry checkpoint "id" = some id) (hthread : config.thread_id ≠ "")
    (hname : id_text env id ≠ "") :
    OneMore memory (act env lib memory (.put config checkpoint metadata now)) config.thread_id
      (langgraph_row (put_record lib config id checkpoint metadata now) (id_text env id)
        (langgraph_seq env memory (put_record lib config id checkpoint metadata now))) := by
  have hrecord : name_of env (put_record lib config id checkpoint metadata now) "thread_id" ≠ "" := by
    rwa [put_record_thread]
  have hrow := langgraph_row_thread hrecord (id_text env id)
    (langgraph_seq env memory (put_record lib config id checkpoint metadata now))
  rw [put_record_thread] at hrow
  unfold act put upsert_langgraph_checkpoint
  dsimp only
  rw [hid]
  dsimp only
  rw [put_record_thread, put_record_id, if_neg (not_or.2 ⟨hthread, hname⟩)]
  exact thread_rows_append memory hrow

theorem ideal_put_eq {entries : List Entry} (hid : lookupEntry checkpoint "id" = some id) :
    ideal_put env lib entries config checkpoint metadata =
      if config.thread_id = "" ∨ id_text env id = "" then entries
      else
        (entries.filter fun entry => !entry.is_version config (id_text env id)) ++
          [put_entry env lib config id checkpoint metadata] := by
  unfold ideal_put
  rw [hid]
  rfl

/-- An entry has its record in the thread. -/
theorem Agrees.no_version {entries : List Entry} {checkpoint_id : String}
    (h : Agrees memory entries) (hnone : NoRecord memory config checkpoint_id) :
    ∀ entry ∈ entries, entry.is_version config checkpoint_id = false := by
  intro entry hentry
  by_contra hsame
  rw [Bool.not_eq_false] at hsame
  unfold Entry.is_version Entry.is_at at hsame
  simp only [Bool.decide_and, Bool.and_eq_true, decide_eq_true_eq] at hsame
  obtain ⟨⟨hthread, htenant, hns⟩, hid⟩ := hsame
  have hin : entry ∈ entries.filter fun entry => entry.thread_id = config.thread_id :=
    List.mem_filter.2 ⟨hentry, by simpa using hthread⟩
  obtain ⟨item, hitem, hwritten⟩ := partner_of_mem (h.written config.thread_id) hin
  have hrecord := hnone item (List.mem_of_mem_filter hitem)
  simp [is_record, of_tenant, in_namespace, hwritten.tenant, hwritten.kind, hwritten.ns, hwritten.id,
    htenant, hns, hid] at hrecord

theorem put_agrees {entries : List Entry} (h : Agrees memory entries)
    (hfine : WritesOnce env memory (.put config checkpoint metadata now)) :
    Agrees (act env lib memory (.put config checkpoint metadata now))
      (ideal_put env lib entries config checkpoint metadata) := by
  rcases hid : lookupEntry checkpoint "id" with _ | id
  · rw [put_no_id hid, ideal_put, hid]
    exact h
  · rw [ideal_put_eq hid]
    by_cases hinvalid : config.thread_id = "" ∨ id_text env id = ""
    · rw [put_invalid hid hinvalid, if_pos hinvalid]
      exact h
    · obtain ⟨hthread, hname⟩ := not_or.1 hinvalid
      have hvalid := hfine id hid
      rw [or_iff_right hthread, or_iff_right hname] at hvalid
      obtain ⟨htenant, hroom, hnone⟩ := hvalid
      have hkept : (entries.filter fun entry => !entry.is_version config (id_text env id)) = entries := by
        rw [List.filter_eq_self]
        intro entry hentry
        rw [h.no_version hnone entry hentry]
        rfl
      have hseq : langgraph_seq env memory (put_record lib config id checkpoint metadata now) =
          next_workflow_seq memory config.thread_id config.tenant := by
        rw [langgraph_seq_none, put_record_thread, put_record_tenant htenant]
        · rwa [put_record_id]
        · rw [put_record_thread, put_record_tenant htenant, put_record_id]
          exact hnone
      rw [if_neg hinvalid, hkept]
      refine h.with_record (put_one_more lib memory metadata now hid hthread hname) (put_row_written _) (fun item hitem => ?_) hroom
      rw [langgraph_row_seq, hseq]
      exact lt_next_workflow_seq hroom.le hitem

theorem put_writes_same {writes : List (String × PyVal)} {task_id : String}
    (hfine : WritesOnce env memory (.put_writes config writes task_id now)) :
    act env lib memory (.put_writes config writes task_id now) = memory := by
  unfold act put_writes
  dsimp only
  split
  · rfl
  · rename_i checkpoint_id hid
    split
    · rfl
    · rename_i hname
      split
      · rfl
      · rename_i record hfound
        obtain ⟨item, hitem, hrecord⟩ := record_of_found hname hfound
        rw [hfine checkpoint_id hid item hitem] at hrecord
        cases hrecord

theorem ideal_writes_same {entries : List Entry} {writes : List (String × PyVal)} {task_id : String}
    (h : Agrees memory entries)
    (hfine : WritesOnce env memory (.put_writes config writes task_id now)) :
    ideal_act env lib entries (.put_writes config writes task_id now) = entries := by
  unfold ideal_act
  dsimp only
  split
  · rfl
  · rename_i checkpoint_id hid
    conv_rhs => rw [← List.map_id entries]
    apply List.map_congr_left
    intro entry hentry
    unfold Entry.with_writes
    rw [h.no_version (hfine checkpoint_id hid) entry hentry, if_neg Bool.false_ne_true]
    rfl

theorem step_agrees {entries : List Entry} {move : Move} (h : Agrees memory entries)
    (hfine : WritesOnce env memory move) :
    Agrees (act env lib memory move) (ideal_act env lib entries move) := by
  cases move with
  | put config checkpoint metadata now => exact put_agrees h hfine
  | put_writes config writes task_id now =>
    rw [put_writes_same hfine, ideal_writes_same h hfine]
    exact h
  | delete_thread thread_id => exact h.without_thread thread_id
  | append_workflow_checkpoint hex now args =>
    exact h.with_row (append_one_more memory hex now args) rfl rfl hfine

theorem Distinct.put {entries : List Entry} (h : Distinct entries) :
    Distinct (ideal_put env lib entries config checkpoint metadata) := by
  rcases hid : lookupEntry checkpoint "id" with _ | id
  · rw [ideal_put, hid]
    exact h
  · rw [ideal_put_eq hid]
    split
    · exact h
    · apply List.pairwise_append.2
      refine ⟨h.filter _, List.pairwise_singleton _ _, fun a ha b hb other hother hnew => ?_⟩
      have hold := List.of_mem_filter ha
      obtain rfl := List.mem_singleton.1 hb
      intro heq
      obtain ⟨hthread, htenant, hns⟩ := of_decide_eq_true hother
      obtain ⟨hthread', htenant', hns'⟩ := of_decide_eq_true hnew
      have hsame : a.is_version config (id_text env id) = true := by
        unfold Entry.is_version Entry.is_at
        rw [hthread, htenant, hns, heq]
        simpa using ⟨⟨hthread'.symm, htenant'.symm, hns'.symm⟩, rfl⟩
      rw [hsame] at hold
      cases hold

theorem step_distinct {entries : List Entry} (move : Move) (h : Distinct entries) :
    Distinct (ideal_act env lib entries move) := by
  cases move with
  | put config checkpoint metadata now => exact h.put
  | put_writes config writes task_id now =>
    unfold ideal_act
    dsimp only
    split
    · exact h
    · apply List.pairwise_map.2
      refine h.imp fun hne other ha hb => ?_
      rw [with_writes_is_at] at ha hb
      rw [with_writes_id, with_writes_id]
      exact hne other ha hb
  | delete_thread thread_id => exact List.Pairwise.filter _ h
  | append_workflow_checkpoint hex now args => exact h

theorem empty_agrees : Agrees Memory.empty [] where
  written _ := .nil
  increasing _ _ := .nil
  in_window _ _ _ hitem := absurd hitem List.not_mem_nil

/-- In every run in which no record is written a second time and none falls
behind the first 1000 rows, every read gives the checkpoints as they were
written: each once, the newest first, with all their writes. -/
theorem saver_reads_what_was_written (hlib : lib.ReadsConfig) (moves : List Move)
    (hfine : Throughout (machine env lib) (WritesOnce env) moves) :
    ∀ before, before <+: moves →
      ReadsAs lib ((machine env lib).after before) ((ideal env lib).after before) := by
  have hall : ∀ before, before <+: moves →
      Agrees ((machine env lib).after before) ((ideal env lib).after before) ∧
        Distinct ((ideal env lib).after before) :=
    along ⟨empty_agrees, List.Pairwise.nil⟩ fun before move hpart h => by
      rw [Machine.after_concat, Machine.after_concat]
      exact ⟨step_agrees h.1 (hfine before move hpart), step_distinct move h.2⟩
  intro before hpart
  exact (hall before hpart).1.reads hlib (hall before hpart).2

/-! ## Two runs -/

def plain_lib : Langgraph where
  get_checkpoint_id config := config.checkpoint_id
  get_checkpoint_metadata _ metadata := metadata

def thread_config (checkpoint_id : Option String) : Config :=
  { thread_id := "thread_1", checkpoint_ns := none, tenant_id := some "tenant_a",
    checkpoint_id := checkpoint_id }

def first_put : Move := .put (thread_config none) [("id", .str "a")] (.dict []) "t"

theorem first_put_writes_once : WritesOnce calm_env Memory.empty first_put := by
  intro id hid
  simp only [lookupEntry, if_true, Option.some.injEq] at hid
  subst hid
  exact .inr (.inr ⟨by decide, by decide, by unfold NoRecord; decide⟩)

theorem put_reads_back :
    ReadsAs plain_lib ((machine calm_env plain_lib).after [first_put])
      ((ideal calm_env plain_lib).after [first_put]) :=
  saver_reads_what_was_written (fun _ => rfl) [first_put]
    (throughout_concat [] (throughout_nil _ _) first_put_writes_once) [first_put] List.prefix_rfl

/-- A put, and a write to a channel of its checkpoint. -/
def put_then_write : List Move :=
  [first_put, .put_writes (thread_config (some "a")) [("messages", .str "hello")] "task_1" "t"]

/-- The checkpoint is read without the write. -/
theorem write_is_not_read :
    ¬ReadsAs plain_lib ((machine calm_env plain_lib).after put_then_write)
      ((ideal calm_env plain_lib).after put_then_write) := by
  intro h
  have hwrites := congrArg (Option.map fun found => (items_of found.pending_writes).length)
    (h.get (thread_config (some "a")))
  exact absurd hwrites (by decide)

end bid_evaluation.saver_laws
