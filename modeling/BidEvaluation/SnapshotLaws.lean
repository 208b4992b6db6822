-- The law of snapshots: a snapshot that is written and read back gives the
-- store again, but for a counter that a fresh store does not have.
import BidEvaluation.Snapshots

open dict_lib once_lib bid_evaluation.values bid_evaluation.snapshots
open bid_evaluation.audit_laws (canon canonItems canonEntries)

namespace bid_evaluation.snapshot_laws

/-! ## Values that are read back -/

/-- Entries in the order of their keys. -/
def sorted_keys (entries : PyDict) : PyDict := entries.insertionSort fun a b => a.1 ≤ b.1

theorem canon_dict (entries : PyDict) :
    canon (.dict entries) = .dict (sorted_keys (canonEntries entries)) := by rw [canon]; rfl

theorem canonEntries_eq_map (entries : PyDict) :
    canonEntries entries = entries.map fun e => (e.1, canon e.2) := by
  induction entries with
  | nil => rw [canonEntries, List.map_nil]
  | cons e rest ih =>
    obtain ⟨key, value⟩ := e
    rw [canonEntries, ih, List.map_cons]

theorem canonEntries_sorted (entries : PyDict) :
    canonEntries (sorted_keys entries) = sorted_keys (canonEntries entries) := by
  rw [canonEntries_eq_map, canonEntries_eq_map]
  exact List.map_insertionSort _ _ _ _ fun _ _ _ _ => Iff.rfl

theorem sorted_sorted (entries : PyDict) :
    sorted_keys (sorted_keys entries) = sorted_keys entries := by
  have : IsTrans (String × PyVal) fun a b => a.1 ≤ b.1 := ⟨fun _ _ _ h h' => String.le_trans h h'⟩
  have : Std.Total (fun a b : String × PyVal => a.1 ≤ b.1) := ⟨fun a b => String.le_total a.1 b.1⟩
  exact List.Pairwise.insertionSort_eq (List.pairwise_insertionSort _ entries)

mutual

theorem canon_canon : ∀ v, canon (canon v) = canon v
  | .list items => by rw [canon, canon, canonItems_twice items]
  | .dict entries => by
    rw [canon_dict, canon_dict, canonEntries_sorted, canonEntries_twice entries, sorted_sorted]
  | .none => rfl
  | .bool _ => rfl
  | .int _ => rfl
  | .float _ => rfl
  | .str _ => rfl

theorem canonItems_twice : ∀ items, canonItems (canonItems items) = canonItems items
  | [] => rfl
  | item :: rest => by rw [canonItems, canonItems, canon_canon item, canonItems_twice rest]

theorem canonEntries_twice : ∀ entries, canonEntries (canonEntries entries) = canonEntries entries
  | [] => rfl
  | (key, value) :: rest => by
    rw [canonEntries, canonEntries, canon_canon value, canonEntries_twice rest]

end

theorem canonItems_eq_map (items : List PyVal) : canonItems items = items.map canon := by
  induction items with
  | nil => rw [canonItems, List.map_nil]
  | cons item rest ih => rw [canonItems, ih, List.map_cons]

theorem json_round_trip_eq (payload : PyDict) :
    json_round_trip payload = sorted_keys (canonEntries payload) := by
  rw [json_round_trip, canon_dict]

theorem json_round_trip_twice (payload : PyDict) :
    json_round_trip (json_round_trip payload) = json_round_trip payload := by
  rw [json_round_trip_eq, json_round_trip_eq, canonEntries_sorted, canonEntries_twice, sorted_sorted]

theorem canon_eq_json (payload : PyDict) : canon (.dict payload) = .dict (json_round_trip payload) := by
  rw [canon_dict, json_round_trip_eq]

section lookup

variable {κ ν : Type} [DecidableEq κ]

theorem lookup_iff {l : List (κ × ν)} (hnodup : (l.map Prod.fst).Nodup) (k : κ) (v : ν) :
    lookupEntry l k = some v ↔ (k, v) ∈ l :=
  ⟨mem_of_lookupEntry, lookupEntry_of_mem hnodup⟩

theorem lookup_none {l : List (κ × ν)} {k : κ} (h : k ∉ l.map Prod.fst) : lookupEntry l k = none := by
  by_contra hsome
  obtain ⟨v, hv⟩ := Option.ne_none_iff_exists'.1 hsome
  exact h (List.mem_map.2 ⟨_, mem_of_lookupEntry hv, rfl⟩)

/-- The order of the entries does not matter to a lookup. -/
theorem lookup_perm {l l' : List (κ × ν)} (hnodup : (l.map Prod.fst).Nodup) (hperm : l'.Perm l)
    (k : κ) : lookupEntry l' k = lookupEntry l k := by
  have hnodup' : (l'.map Prod.fst).Nodup := (hperm.map Prod.fst).nodup_iff.2 hnodup
  ext v
  rw [lookup_iff hnodup', lookup_iff hnodup, hperm.mem_iff]

end lookup

/-- What is read back under a key. -/
theorem read_back {payload : PyDict} {key : String} {value : PyVal}
    (hnodup : (payload.map Prod.fst).Nodup) (h : (key, value) ∈ payload) :
    lookupEntry (json_round_trip payload) key = some (canon value) := by
  have hkeys : ((canonEntries payload).map Prod.fst).Nodup := by
    rw [canonEntries_eq_map, List.map_map]
    exact hnodup
  rw [json_round_trip_eq, sorted_keys, lookup_perm hkeys (List.perm_insertionSort _ _),
    lookup_iff hkeys, canonEntries_eq_map]
  exact List.mem_map.2 ⟨(key, value), h, rfl⟩

theorem get_of_lookup {payload : PyDict} {key : String} {value : PyVal}
    (h : lookupEntry payload key = some value) :
    payload.get key = value ∧ ∀ default, payload.getD key default = value := by
  unfold PyDict.get PyDict.getD
  rw [h]
  exact ⟨rfl, fun _ => rfl⟩

/-! ## The keys of a snapshot -/

theorem snapshot_keys (s : Store) : ((state_snapshot s).map Prod.fst).Nodup := by
  have hkeys : (state_snapshot s).map Prod.fst =
      ["schema_version", "idempotency_records", "audit_logs", "dataset_version",
        "strategy_version_counter", "strategy_config", "parser_retrieval_metrics"] ++
        Collection.all.map Collection.name := by
    unfold state_snapshot
    rw [List.map_append, List.map_map]
    rfl
  rw [hkeys]
  decide

theorem snapshot_read_back {s : Store} {key : String} {value : PyVal}
    (h : (key, value) ∈ state_snapshot s) :
    (json_round_trip (state_snapshot s)).get key = canon value ∧
      ∀ default, (json_round_trip (state_snapshot s)).getD key default = canon value :=
  get_of_lookup (read_back (snapshot_keys s) h)

theorem collection_in_snapshot (s : Store) (c : Collection) :
    (c.name, .dict (s.get c)) ∈ state_snapshot s :=
  List.mem_append_right _ (List.mem_map.2 ⟨c, c.mem_all, rfl⟩)

/-! ## Records -/

def canonical (record : Record String PyDict) : Record String PyDict :=
  ⟨record.fingerprint, json_round_trip record.data⟩

theorem restore_record_entry (records : Dict (String × String) (Record String PyDict))
    (entry : (String × String) × Record String PyDict) :
    restore_record records (canon (record_entry entry)) =
      records.set entry.1 (canonical entry.2) := by
  obtain ⟨⟨scope, key⟩, fingerprint, data⟩ := entry
  generalize hrow : ([("scope", .str scope), ("key", .str key), ("fingerprint", .str fingerprint),
    ("data", .dict data)] : PyDict) = row
  have hkeys : (row.map Prod.fst).Nodup := by
    rw [← hrow]
    show ["scope", "key", "fingerprint", "data"].Nodup
    decide
  have hget : ∀ {key : String} {value : PyVal}, (key, value) ∈ row →
      (json_round_trip row).get key = canon value :=
    fun h => (get_of_lookup (read_back hkeys h)).1
  have hentry : canon (record_entry ((scope, key), ⟨fingerprint, data⟩)) =
      .dict (json_round_trip row) := by
    rw [← canon_eq_json, ← hrow]
    rfl
  rw [hentry, restore_record]
  dsimp only
  have hscope : ("scope", PyVal.str scope) ∈ row := by simp [← hrow]
  have hkey : ("key", PyVal.str key) ∈ row := by simp [← hrow]
  have hfingerprint : ("fingerprint", PyVal.str fingerprint) ∈ row := by simp [← hrow]
  have hdata : ("data", PyVal.dict data) ∈ row := by simp [← hrow]
  rw [hget hscope, hget hkey, hget hfingerprint, hget hdata, canon_eq_json]
  rfl

theorem foldl_set_get {κ ν : Type} [DecidableEq κ] (f : ν → ν) {l : List (κ × ν)}
    (hnodup : (l.map Prod.fst).Nodup) (d : Dict κ ν) (k : κ) :
    (l.foldl (fun d e => d.set e.1 (f e.2)) d).get? k = ((lookupEntry l k).map f).or (d.get? k) := by
  induction l generalizing d with
  | nil => rfl
  | cons e rest ih =>
    obtain ⟨a, v⟩ := e
    rw [List.map_cons, List.nodup_cons] at hnodup
    rw [List.foldl_cons, ih hnodup.2, lookupEntry, Dict.get?_set]
    by_cases heq : a = k
    · subst heq
      simp [lookup_none hnodup.1]
    · rw [if_neg heq, if_neg (Ne.symm heq)]

theorem restored_records (s : Store) (key : String × String) :
    ((restore_state (json_round_trip (state_snapshot s)) fresh).idempotency_records.get? key) =
      (s.idempotency_records.get? key).map canonical := by
  have hin : ("idempotency_records", PyVal.list (s.idempotency_records.entries.map record_entry)) ∈
      state_snapshot s := by simp [state_snapshot]
  have hrows := (snapshot_read_back hin).1
  have hfold : ∀ (l : List ((String × String) × Record String PyDict)) d,
      ((l.map record_entry).map canon).foldl restore_record d =
        l.foldl (fun d e => d.set e.1 (canonical e.2)) d := by
    intro l
    induction l with
    | nil => exact fun _ => rfl
    | cons e rest ih =>
      intro d
      rw [List.map_cons, List.map_cons, List.foldl_cons, List.foldl_cons, restore_record_entry, ih]
  unfold restore_state Store.bind_repositories
  dsimp only
  rw [hrows, canon, canonItems_eq_map, list_or_empty, hfold,
    foldl_set_get canonical s.idempotency_records.keys_nodup, Dict.get?_empty, Option.or_none]
  rfl

/-! ## Metrics -/

/-- A metric is merged into the counters that are there. -/
theorem merged_get {l : List (String × Int)} (hnodup : (l.map Prod.fst).Nodup)
    (merged : Dict String Int) (name : String) :
    ((l.map fun metric => (metric.1, PyVal.int metric.2)).foldl merge_metric merged).get? name =
      (merged.get? name).map fun old => (lookupEntry l name).getD old := by
  induction l generalizing merged with
  | nil =>
    rw [List.map_nil, List.foldl_nil]
    simp [lookupEntry]
  | cons metric rest ih =>
    obtain ⟨a, n⟩ := metric
    rw [List.map_cons, List.nodup_cons] at hnodup
    have hmerge : (merge_metric merged (a, .int n)).get? name =
        (merged.get? name).map fun old => if a = name then n else old := by
      unfold merge_metric
      dsimp only [int?]
      by_cases heq : a = name
      · subst heq
        cases hold : merged.get? a with
        | none => simp [hold]
        | some old => simp
      · cases hold : merged.get? a with
        | none => simp [heq]
        | some old =>
          dsimp only
          rw [Dict.get?_set_of_ne _ _ (Ne.symm heq)]
          simp [heq]
    rw [List.map_cons, List.foldl_cons, ih hnodup.2, hmerge, Option.map_map, lookupEntry]
    congr 1
    funext old
    rw [Function.comp_apply]
    by_cases heq : a = name
    · subst heq
      simp [lookup_none hnodup.1]
    · rw [if_neg heq, if_neg heq]

theorem metrics_sorted (metrics : Dict String Int) :
    json_round_trip (metrics.entries.map fun metric => (metric.1, PyVal.int metric.2)) =
      (metrics.entries.insertionSort fun a b => a.1 ≤ b.1).map fun metric =>
        (metric.1, PyVal.int metric.2) := by
  have hcanon : canonEntries (metrics.entries.map fun metric => (metric.1, PyVal.int metric.2)) =
      metrics.entries.map fun metric => (metric.1, PyVal.int metric.2) := by
    rw [canonEntries_eq_map, List.map_map]
    rfl
  rw [json_round_trip_eq, hcanon, sorted_keys]
  exact (List.map_insertionSort (fun a b : String × Int => a.1 ≤ b.1)
    (fun a b : String × PyVal => a.1 ≤ b.1) _ _ fun _ _ _ _ => Iff.rfl).symm

/-- The counters of a fresh store take their values, and no other counter is
made. -/
theorem restored_metric (s : Store) (name : String) :
    (restore_state (json_round_trip (state_snapshot s)) fresh).parser_retrieval_metrics.get? name =
      (zero_metrics.get? name).map fun _ => (s.parser_retrieval_metrics.get? name).getD 0 := by
  have hin : ("parser_retrieval_metrics", PyVal.dict (s.parser_retrieval_metrics.entries.map
      fun metric => (metric.1, PyVal.int metric.2))) ∈ state_snapshot s := by
    simp [state_snapshot]
  have hmetrics := (snapshot_read_back hin).1
  have hperm := List.perm_insertionSort (fun a b : String × Int => a.1 ≤ b.1)
    s.parser_retrieval_metrics.entries
  have hkeys := s.parser_retrieval_metrics.keys_nodup
  unfold restore_state Store.bind_repositories
  dsimp only
  rw [hmetrics, canon_eq_json, metrics_sorted]
  dsimp only
  rw [merged_get ((hperm.map Prod.fst).nodup_iff.2 hkeys), lookup_perm hkeys hperm]
  show (zero_metrics.get? name).map _ = _
  cases hzero : zero_metrics.get? name with
  | none => rfl
  | some old =>
    have hold : old = 0 := by
      obtain ⟨word, -, hword⟩ := List.mem_map.1 (mem_of_lookupEntry hzero)
      exact (congrArg Prod.snd hword).symm
    subst hold
    rfl

/-! ## The law -/

/-- The second store has what the first has, as JSON, in every collection,
counter and metric of a snapshot, and a write through a repository shows in
its collection. -/
structure Restores (s t : Store) : Prop where
  collections : ∀ c, canon (.dict (t.get c)) = canon (.dict (s.get c))
  audit_logs : canon (.list t.get_audit_logs) = canon (.list s.get_audit_logs)
  records : ∀ key, (t.idempotency_records.get? key).map canonical =
    (s.idempotency_records.get? key).map canonical
  dataset_version : t.dataset_version = s.dataset_version
  strategy_version_counter : t.strategy_version_counter = s.strategy_version_counter
  strategy_config : canon (.dict t.strategy_config) = canon (.dict s.strategy_config)
  metrics : ∀ name,
    t.parser_retrieval_metrics.get? name = s.parser_retrieval_metrics.get? name
  write_shows : ∀ c ∈ bound, ∀ dict, (t.write c dict).get c = dict
  audit_shows : ∀ rows, (t.write_audit_logs rows).get_audit_logs = rows

theorem restored_collection (s : Store) (c : Collection) :
    (restore_state (json_round_trip (state_snapshot s)) fresh).get c = json_round_trip (s.get c) := by
  have hread := (snapshot_read_back (collection_in_snapshot s c)).1
  unfold restore_state Store.bind_repositories Store.get
  dsimp only
  rw [if_pos rfl, hread, canon_eq_json]
  rfl

theorem restored_audit_logs (s : Store) :
    (restore_state (json_round_trip (state_snapshot s)) fresh).get_audit_logs =
      canonItems s.get_audit_logs := by
  have hin : ("audit_logs", PyVal.list s.get_audit_logs) ∈ state_snapshot s := by
    simp [state_snapshot]
  have hread := (snapshot_read_back hin).1
  unfold restore_state Store.bind_repositories
  unfold Store.get_audit_logs at hread ⊢
  dsimp only
  rw [if_pos rfl, hread, canon]
  rfl

theorem restored_rest (s : Store) :
    let t := restore_state (json_round_trip (state_snapshot s)) fresh
    t.dataset_version = s.dataset_version ∧
      t.strategy_version_counter = s.strategy_version_counter ∧
      t.strategy_config = json_round_trip s.strategy_config := by
  have hversion : ("dataset_version", PyVal.str s.dataset_version) ∈ state_snapshot s := by
    simp [state_snapshot]
  have hcounter : ("strategy_version_counter", PyVal.int s.strategy_version_counter) ∈
      state_snapshot s := by simp [state_snapshot]
  have hconfig : ("strategy_config", PyVal.dict s.strategy_config) ∈ state_snapshot s := by
    simp [state_snapshot]
  unfold restore_state Store.bind_repositories
  dsimp only
  rw [(snapshot_read_back hversion).2, (snapshot_read_back hcounter).2,
    (snapshot_read_back hconfig).1, canon_eq_json]
  exact ⟨rfl, rfl, rfl⟩

/-- A write through a repository that holds the object of its attribute. -/
theorem write_get {s : Store} {c : Collection} (h : s.repository c = s.collection c)
    (dict : PyDict) : (s.write c dict).get c = dict := by
  unfold Store.get Store.write
  dsimp only
  rw [h, if_pos ⟨rfl, rfl⟩]

theorem write_audit_logs_get {s : Store} (h : s.audit_repository = s.audit_logs)
    (rows : List PyVal) : (s.write_audit_logs rows).get_audit_logs = rows := by
  unfold Store.get_audit_logs Store.write_audit_logs
  dsimp only
  rw [h, if_pos rfl]

theorem restores_iff (s : Store) :
    Restores s (restore_state (json_round_trip (state_snapshot s)) fresh) ↔
      ∀ name, (s.parser_retrieval_metrics.get? name).isSome = (zero_metrics.get? name).isSome := by
  have hcollection := restored_collection s
  have haudit := restored_audit_logs s
  have hrecords := restored_records s
  have hmetrics := restored_metric s
  obtain ⟨hversion, hcounter, hconfig⟩ := restored_rest s
  have hbound : ∀ payload, (restore_state payload fresh).repository =
      (restore_state payload fresh).collection ∧ (restore_state payload fresh).audit_repository =
        (restore_state payload fresh).audit_logs := fun _ => ⟨rfl, rfl⟩
  replace hbound := hbound (json_round_trip (state_snapshot s))
  generalize restore_state (json_round_trip (state_snapshot s)) fresh = t at *
  constructor
  · intro h name
    have hmetric := h.metrics name
    rw [hmetrics] at hmetric
    rw [← hmetric, Option.isSome_map]
  · intro hnames
    refine ⟨fun c => ?_, ?_, fun key => ?_, hversion, hcounter, ?_, fun name => ?_, ?_, ?_⟩
    · rw [hcollection, canon_eq_json, json_round_trip_twice, canon_eq_json]
    · rw [haudit, canon, canonItems_twice, canon]
    · rw [hrecords, Option.map_map]
      congr 1
      funext record
      unfold canonical
      rw [Function.comp_apply, json_round_trip_twice]
    · rw [hconfig, canon_eq_json, json_round_trip_twice, canon_eq_json]
    · rw [hmetrics]
      have hname := hnames name
      rcases hmetric : s.parser_retrieval_metrics.get? name with _ | n
      · rw [hmetric] at hname
        rw [Option.isSome_eq_false_iff.1 hname.symm |> Option.isNone_iff_eq_none.1, Option.map_none]
      · rw [hmetric] at hname
        obtain ⟨zero, hzero⟩ := Option.isSome_iff_exists.1 hname.symm
        rw [hzero]
        rfl
    · exact fun c _ => write_get (congrFun hbound.1 c)
    · exact write_audit_logs_get hbound.2

/-! ## Runs -/

/-- The counters of a fresh store are there, and at most one more. -/
def Counters (s : Store) : Prop :=
  ∀ name, name ≠ "retrieval_cross_tenant_drops_total" →
    (s.parser_retrieval_metrics.get? name).isSome = (zero_metrics.get? name).isSome

theorem zero_metric (name : String) : (zero_metrics.get? name).isSome = true ↔ name ∈ metric_names := by
  rw [Option.isSome_iff_exists]
  constructor
  · rintro ⟨n, hn⟩
    obtain ⟨word, hword, heq⟩ := List.mem_map.1 (mem_of_lookupEntry hn)
    have hname : word = name := congrArg Prod.fst heq
    rw [← hname]
    exact hword
  · intro hin
    exact ⟨0, lookupEntry_of_mem zero_metrics.keys_nodup (List.mem_map.2 ⟨name, hin, rfl⟩)⟩

/-- A merge makes no counter and drops none. -/
theorem merged_keys (entries : PyDict) (merged : Dict String Int) (name : String) :
    ((entries.foldl merge_metric merged).get? name).isSome = (merged.get? name).isSome := by
  induction entries generalizing merged with
  | nil => rfl
  | cons metric rest ih =>
    rw [List.foldl_cons, ih]
    unfold merge_metric
    rcases hold : merged.get? metric.1 with _ | old
    · rfl
    rcases hint : int? metric.2 with _ | n
    · rfl
    dsimp only
    rw [Dict.get?_set]
    split
    · rename_i heq
      rw [heq, hold]
      rfl
    · rfl

theorem restored_counters (payload : PyDict) (name : String) :
    ((restore_state payload fresh).parser_retrieval_metrics.get? name).isSome =
      (zero_metrics.get? name).isSome := by
  unfold restore_state Store.bind_repositories
  dsimp only
  split
  · exact merged_keys _ _ name
  · rfl

theorem counters_move {s : Store} (h : Counters s) (move : Move) : Counters (s.move move) := by
  intro name hne
  cases move with
  | count metric n =>
    obtain ⟨word, hword⟩ := metric
    show ((s.parser_retrieval_metrics.set word _).get? name).isSome = _
    rw [Dict.get?_set]
    split
    · rename_i heq
      rw [heq, (zero_metric word).2 hword]
      rfl
    · exact h name hne
  | count_cross_tenant_drops dropped =>
    unfold Store.move Store.count_cross_tenant_drops
    dsimp only
    split
    · rw [Dict.get?_set_of_ne _ _ hne]
      exact h name hne
    · exact h name hne
  | restart saved =>
    cases saved with
    | none => rfl
    | some payload => exact restored_counters _ name
  | _ => exact h name hne

theorem counters_after (moves : List Move) : Counters (after moves) := by
  induction moves using List.reverseRecOn with
  | nil => exact fun _ _ => rfl
  | append_singleton moves move ih =>
    unfold after at ih ⊢
    rw [List.foldl_append]
    exact counters_move ih move

/-- In every state, the snapshot that is written as JSON, read back and
restored into a fresh store gives the state again exactly when no row of
another tenant was dropped since the store was made or restored. -/
theorem restore_undoes_snapshot_iff (moves : List Move) :
    Restores (after moves) (restore_state (json_round_trip (state_snapshot (after moves))) fresh) ↔
      (after moves).parser_retrieval_metrics.get? "retrieval_cross_tenant_drops_total" = none := by
  have hzero : (zero_metrics.get? "retrieval_cross_tenant_drops_total").isSome = false := by decide
  rw [restores_iff, ← Option.isNone_iff_eq_none, ← Option.isSome_eq_false_iff]
  constructor
  · intro h
    exact (h _).trans hzero
  · intro hnone name
    by_cases hname : name = "retrieval_cross_tenant_drops_total"
    · rw [hname, hnone, hzero]
    · exact counters_after moves name hname

/-- A query drops one row of another tenant. -/
theorem drop_counter_is_lost :
    ¬ Restores (after [.count_cross_tenant_drops 1])
        (restore_state (json_round_trip (state_snapshot (after [.count_cross_tenant_drops 1]))) fresh) ∧
      (after [.count_cross_tenant_drops 1]).parser_retrieval_metrics.get?
        "retrieval_cross_tenant_drops_total" = some 1 := by
  have hcount : (after [.count_cross_tenant_drops 1]).parser_retrieval_metrics.get?
      "retrieval_cross_tenant_drops_total" = some 1 := by decide
  refine ⟨fun h => ?_, hcount⟩
  have hmetric := (restores_iff _).1 h "retrieval_cross_tenant_drops_total"
  rw [hcount] at hmetric
  revert hmetric
  decide

end bid_evaluation.snapshot_laws
