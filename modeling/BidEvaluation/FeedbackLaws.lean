-- The laws of data feedback. Each item and each override is captured once, by a
-- run of its own tenant, and every run moves the version of the data set on.
import BidEvaluation.DataFeedback
import BidEvaluation.ItemLaws
import BidEvaluation.Lib.Capture

open dict_lib stepwise zoom decimal_digits capture bid_evaluation.values bid_evaluation.core
  bid_evaluation.store_ops bid_evaluation.data_feedback bid_evaluation.item_laws bid_evaluation.endings

namespace bid_evaluation.feedback_laws

variable {env : Env} {args : FeedbackArgs} {b b' : System}

/-! ## The version -/

/-- The order of versions: the major part first, the patch last. -/
def Earlier (v w : Nat × Nat × Nat) : Prop :=
  v.1 < w.1 ∨ v.1 = w.1 ∧ (v.2.1 < w.2.1 ∨ v.2.1 = w.2.1 ∧ v.2.2 < w.2.2)

theorem bumped_later (bump : String) (v : Nat × Nat × Nat) : Earlier v (bumped bump v) := by
  obtain ⟨major, minor, patch⟩ := v
  unfold Earlier bumped
  dsimp only
  split
  · exact .inl (Nat.lt_succ_self major)
  · split
    · exact .inr ⟨rfl, .inl (Nat.lt_succ_self minor)⟩
    · exact .inr ⟨rfl, .inr ⟨rfl, Nat.lt_succ_self patch⟩⟩

theorem Earlier.trans {u v w : Nat × Nat × Nat} (h : Earlier u v) (h' : Earlier v w) : Earlier u w := by
  unfold Earlier at *
  omega

theorem no_dot_in_digits (n : Nat) : '.' ∉ Nat.toDigits 10 n := by
  intro h
  exact absurd (Nat.isDigit_of_mem_toDigits (by decide) (by decide) h) (by decide)

/-- A version is read back from its text. -/
theorem version_match_text (v : Nat × Nat × Nat) : version_match (version_text v) = some v := by
  obtain ⟨major, minor, patch⟩ := v
  have hletters : (version_text (major, minor, patch)).toList =
      'v' :: (Nat.toDigits 10 major ++ '.' :: (Nat.toDigits 10 minor ++ '.' :: Nat.toDigits 10 patch)) := by
    unfold version_text
    simp
  have hparts : (Nat.toDigits 10 major ++ '.' :: (Nat.toDigits 10 minor ++ '.' :: Nat.toDigits 10 patch)).splitOn
      '.' = [Nat.toDigits 10 major, Nat.toDigits 10 minor, Nat.toDigits 10 patch] := by
    rw [List.splitOn_append_cons_self_of_not_mem (no_dot_in_digits major),
      List.splitOn_append_cons_self_of_not_mem (no_dot_in_digits minor),
      List.splitOn_eq_singleton (no_dot_in_digits patch)]
  unfold version_match
  rw [hletters]
  simp only [hparts, numberValue_toDigits]
  rfl

theorem bump_text (v : Nat × Nat × Nat) (bump : String) :
    bump_dataset_version (version_text v) bump = version_text (bumped bump v) := by
  unfold bump_dataset_version
  rw [version_match_text]

/-! ## Steps of a run -/

@[simp] theorem ends_on_world {α : Type} {m : Act α} {Q : Except PyErr α → System → Prop} :
    Ends (on_world m) b Q ↔ Q (m.result b.world) { b with world := m.final b.world } :=
  meets_zoomed rfl

theorem keys_set_new {ν : Type} {d : Dict String ν} {k : String} (v : ν) (h : d.get? k = none) :
    (d.set k v).keys = d.keys ++ [k] := by
  obtain ⟨entries, hkeys⟩ := d
  unfold Dict.get? at h
  unfold Dict.set Dict.keys
  dsimp only at h ⊢
  clear hkeys
  induction entries with
  | nil => rfl
  | cons e rest ih =>
    obtain ⟨a, w⟩ := e
    unfold lookupEntry at h
    by_cases ha : a = k
    · rw [if_pos ha] at h
      cases h
    · rw [if_neg ha] at h
      unfold setEntry
      rw [if_neg ha, List.map_cons, List.map_cons, ih h]
      rfl

theorem mem_keys_of_get {ν : Type} {d : Dict String ν} {k : String} {v : ν} (h : d.get? k = some v) :
    k ∈ d.keys := List.mem_map.2 ⟨(k, v), (d.mem_entries_iff k v).2 h, rfl⟩

/-! ## The two loops -/

def counterexample_ids (b : System) : List String := b.samples.counterexample_samples.keys

def gold_candidate_ids (b : System) : List String := b.samples.gold_candidate_samples.keys

/-- The item is there, and it is the tenant's. -/
def Owned (s : Store) (tenant_id dlq_id : String) : Prop :=
  ∃ item, get_dlq_item s dlq_id tenant_id = some item

/-- Nothing but the counterexamples changed. -/
structure SameButItems (s t : System) : Prop where
  store : t.world.store = s.world.store
  gold : t.samples.gold_candidate_samples = s.samples.gold_candidate_samples
  version : t.samples.dataset_version = s.samples.dataset_version

structure SameButOverrides (s t : System) : Prop where
  store : t.world.store = s.world.store
  counterexamples : t.samples.counterexample_samples = s.samples.counterexample_samples
  version : t.samples.dataset_version = s.samples.dataset_version

theorem capture_dlq_item.turn (env : Env) (args : FeedbackArgs) (b : System) :
    Turn (SameButItems b) counterexample_ids id (Owned b.world.store args.tenant_id)
      (capture_dlq_item env args) := by
  intro n dlq_id s hs
  unfold capture_dlq_item
  simp only [meets_bind, meets_read, then_ok]
  rw [hs.store]
  rcases hitem : get_dlq_item b.world.store dlq_id args.tenant_id with _ | item
  · refine meets_pure.2 ⟨hs, .inl ⟨rfl, rfl, ?_⟩⟩
    rintro ⟨item, hfound⟩
    cases hitem.symm.trans hfound
  · dsimp only
    rcases hsample : s.samples.counterexample_samples.get? dlq_id with _ | sample
    · have hnow : (utcnow env).result s.world = .ok (env.clock s.world.draws) := rfl
      simp only [meets_bind, ends_on_world, hnow, then_ok, meets_write, meets_pure, true_and]
      exact ⟨⟨hs.store, hs.gold, hs.version⟩, .inr ⟨keys_set_new _ hsample, item, hitem⟩⟩
    · exact meets_pure.2 ⟨hs, .inl ⟨rfl, rfl, fun _ => mem_keys_of_get hsample⟩⟩

theorem capture_override.turn (env : Env) (args : FeedbackArgs) (b : System) :
    Turn (SameButOverrides b) gold_candidate_ids AuditLog.audit_id
      (fun log => is_override args.tenant_id log = true) (capture_override env args) := by
  intro n log s hs
  unfold capture_override
  by_cases hoverride : is_override args.tenant_id log = true
  · rw [if_pos hoverride]
    simp only [meets_bind, meets_read, then_ok]
    rcases hsample : s.samples.gold_candidate_samples.get? log.audit_id with _ | sample
    · have hnow : (utcnow env).result s.world = .ok (env.clock s.world.draws) := rfl
      simp only [meets_bind, ends_on_world, hnow, then_ok, meets_write, meets_pure, true_and]
      exact ⟨⟨hs.store, hs.counterexamples, hs.version⟩, .inr ⟨keys_set_new _ hsample, hoverride⟩⟩
    · exact meets_pure.2 ⟨hs, .inl ⟨rfl, rfl, fun _ => mem_keys_of_get hsample⟩⟩
  · rw [if_neg hoverride]
    exact meets_pure.2 ⟨hs, .inl ⟨rfl, rfl, fun h => absurd h hoverride⟩⟩

/-! ## A run -/

/-- The entries that a run looks at. -/
def candidate_logs (s : Store) (args : FeedbackArgs) : List AuditLog :=
  if args.include_manual_override_candidates then s.audit_logs else []

theorem capture_overrides.spec (env : Env) (args : FeedbackArgs) (b : System) :
    Ends (capture_overrides env args) b fun r b' => SameButOverrides b b' ∧
      ∃ added, r = .ok added.length ∧ Adds gold_candidate_ids AuditLog.audit_id
        (fun log => is_override args.tenant_id log = true) (candidate_logs b.world.store args) b b' added := by
  have hsame : SameButOverrides b b := ⟨rfl, rfl, rfl⟩
  unfold capture_overrides candidate_logs
  by_cases hinclude : args.include_manual_override_candidates = true
  · rw [if_pos hinclude, if_pos hinclude]
    simp only [meets_bind, meets_read, then_ok]
    refine (loop_adds (capture_override.turn env args b) _ 0 hsame).post fun r b' h => ?_
    obtain ⟨hsame', added, hr, hadds⟩ := h
    rw [Nat.zero_add] at hr
    exact ⟨hsame', added, hr, hadds⟩
  · rw [if_neg hinclude, if_neg hinclude]
    exact meets_pure.2 ⟨hsame, [], rfl, by simp, by simp, by simp⟩

/-- What a run leaves: the samples that it added, the next version, and one
more entry in the audit log. -/
structure Ran (args : FeedbackArgs) (b b' : System) (items overrides : List String) : Prop where
  items : Adds counterexample_ids id (Owned b.world.store args.tenant_id)
    (candidate_dlq_ids b.world.store args) b b' items
  overrides : Adds gold_candidate_ids AuditLog.audit_id (fun log => is_override args.tenant_id log = true)
    (candidate_logs b.world.store args) b b' overrides
  version : b'.samples.dataset_version =
    bump_dataset_version b.samples.dataset_version args.version_bump
  logged : ∃ log : AuditLog, log.action = "data_feedback_run" ∧
    b'.world.store = { b.world.store with audit_logs := b.world.store.audit_logs ++ [log] }

def result_of (args : FeedbackArgs) (b : System) (items overrides : List String) : FeedbackResult :=
  ⟨args.release_id, items.length, overrides.length, b.samples.dataset_version,
    bump_dataset_version b.samples.dataset_version args.version_bump⟩

theorem run_data_feedback.spec (env : Env) (args : FeedbackArgs) (b : System) :
    Ends (run_data_feedback env args) b fun r b' => ∃ items overrides,
      r = .ok (result_of args b items overrides) ∧ Ran args b b' items overrides := by
  have hsame : SameButItems b b := ⟨rfl, rfl, rfl⟩
  unfold run_data_feedback
  simp only [meets_bind, meets_read, then_ok]
  refine (loop_adds (capture_dlq_item.turn env args b) (candidate_dlq_ids b.world.store args) 0
    hsame).post fun r c hc => ?_
  obtain ⟨hitems_same, items, hr, hitems⟩ := hc
  rw [hr, Nat.zero_add, then_ok, meets_bind]
  refine (capture_overrides.spec env args c).post fun r' d hd => ?_
  obtain ⟨hover_same, overrides, hr', hover⟩ := hd
  rw [hr', then_ok]
  simp only [meets_bind, meets_read, then_ok, meets_write, true_and]
  -- The entry and the snapshot do not touch the samples.
  refine ends_on_world.2 ?_
  obtain ⟨-, hlogged, log, -, haction, -, hstore⟩ := append_audit_log.adds env args.tenant_id
    "data_feedback_run" [("release_id", .str args.release_id), ("counterexample_added", .int items.length),
      ("gold_candidates_added", .int overrides.length), ("dataset_version_before", .str d.samples.dataset_version),
      ("dataset_version_after", .str (bump_dataset_version d.samples.dataset_version args.version_bump)),
      ("trace_id", .str args.trace_id)] d.world
  dsimp only
  rw [hlogged, then_ok, meets_bind]
  refine ends_on_world.2 ?_
  dsimp only
  generalize (append_audit_log env args.tenant_id "data_feedback_run" _).final d.world = logged at hstore ⊢
  have hkeeps : Meets AnyStep (save_state env) logged (fun r t => (∃ u, r = .ok u) ∧ t.store = logged.store ∧
      t.draws = logged.draws) := save_state.keeps logged
  obtain ⟨-, ⟨u, hsaved⟩, hkept, -⟩ := hkeeps
  rw [hsaved, then_ok, meets_pure]
  have hversion : d.samples.dataset_version = b.samples.dataset_version :=
    hover_same.version.trans hitems_same.version
  have hstore_eq : d.world.store = b.world.store := hover_same.store.trans hitems_same.store
  refine ⟨items, overrides, ?_, ?_⟩
  · rw [hversion]
    rfl
  · refine ⟨?_, ?_, ?_, log, haction, ?_⟩
    · have hcounterexamples : counterexample_ids d = counterexample_ids c :=
        congrArg Dict.keys hover_same.counterexamples
      exact hitems.between rfl hcounterexamples
    · have hgold : gold_candidate_ids b = gold_candidate_ids c := (congrArg Dict.keys hitems_same.gold).symm
      rw [hitems_same.store] at hover
      exact hover.between hgold rfl
    · rw [← hversion]
    · rw [← hstore_eq]
      exact hkept.trans hstore

/-! ## Runs and other operations -/

/-- A run of data feedback, or any other operation. Whatever that does to the
rest of the system, it does not write the samples. -/
inductive Event where
  | feedback (args : FeedbackArgs)
  | other (change : World → World)

def perform (env : Env) (b : System) : Event → System
  | .feedback args => (run_data_feedback env args).final b
  | .other change => { b with world := change b.world }

def after (env : Env) (b : System) (events : List Event) : System := events.foldl (perform env) b

/-- A run, with the states before and after it. -/
structure FeedbackRun where
  args : FeedbackArgs
  before : System
  result : Except PyErr FeedbackResult
  ended : System

def run_of (env : Env) (args : FeedbackArgs) (b : System) : FeedbackRun :=
  ⟨args, b, (run_data_feedback env args).result b, (run_data_feedback env args).final b⟩

def feedback_runs (env : Env) : System → List Event → List FeedbackRun
  | _, [] => []
  | b, .feedback args :: rest =>
    run_of env args b :: feedback_runs env (perform env b (.feedback args)) rest
  | b, .other change :: rest => feedback_runs env (perform env b (.other change)) rest

def new_counterexamples (run : FeedbackRun) : List String :=
  (counterexample_ids run.ended).filter (fun id => id ∉ counterexample_ids run.before)

def new_gold_candidates (run : FeedbackRun) : List String :=
  (gold_candidate_ids run.ended).filter (fun id => id ∉ gold_candidate_ids run.before)

/-- The tenant has no item and no override that it did not have. -/
structure NothingNew (tenant_id : String) (s t : Store) : Prop where
  items : ∀ dlq_id, Owned t tenant_id dlq_id → Owned s tenant_id dlq_id
  overrides : ∀ log ∈ t.audit_logs, is_override tenant_id log = true → log ∈ s.audit_logs

/-- What a run promises. -/
structure CapturesOnce (env : Env) (run : FeedbackRun) : Prop where
  counted : ∃ r, run.result = .ok r ∧ r.counterexample_added = (new_counterexamples run).length ∧
    r.gold_candidates_added = (new_gold_candidates run).length
  counterexamples_grow : (counterexample_ids run.ended).length =
    (counterexample_ids run.before).length + (new_counterexamples run).length
  gold_grows : (gold_candidate_ids run.ended).length =
    (gold_candidate_ids run.before).length + (new_gold_candidates run).length
  own_items : ∀ dlq_id ∈ new_counterexamples run, Owned run.before.world.store run.args.tenant_id dlq_id
  own_overrides : ∀ audit_id ∈ new_gold_candidates run, ∃ log ∈ run.before.world.store.audit_logs,
    is_override run.args.tenant_id log = true ∧ log.audit_id = audit_id
  repeated : ∀ events, NothingNew run.args.tenant_id run.before.world.store
      (after env run.ended events).world.store →
    ∃ r, (run_data_feedback env run.args).result (after env run.ended events) = .ok r ∧
      r.counterexample_added = 0 ∧ r.gold_candidates_added = 0
  version : ∃ v v', run.before.samples.dataset_version = version_text v ∧
    run.ended.samples.dataset_version = version_text v' ∧ Earlier v v'

/-! ## What is new -/

theorem filter_new {before added ended : List String} (h : ended = before ++ added) (hnodup : ended.Nodup) :
    ended.filter (fun id => id ∉ before) = added := by
  subst h
  have hapart := (List.nodup_append.1 hnodup).2.2
  rw [List.filter_append, List.filter_eq_nil_iff.2, List.filter_eq_self.2]
  · rfl
  · intro id hin
    rw [decide_eq_true_eq]
    exact fun hbefore => hapart id hbefore id hin rfl
  · intro id hin
    rw [decide_eq_true_eq, not_not]
    exact hin

theorem run_ran (env : Env) (args : FeedbackArgs) (b : System) : ∃ items overrides,
    (run_of env args b).result = .ok (result_of args b items overrides) ∧
      Ran args b (run_of env args b).ended items overrides ∧
      new_counterexamples (run_of env args b) = items ∧ new_gold_candidates (run_of env args b) = overrides := by
  obtain ⟨-, items, overrides, hr, hran⟩ := run_data_feedback.spec env args b
  refine ⟨items, overrides, hr, hran, ?_, ?_⟩
  · exact filter_new hran.items.appended (Dict.keys_nodup _)
  · exact filter_new hran.overrides.appended (Dict.keys_nodup _)

/-- The ids of a state, and after them those of its runs. -/
theorem after_ids (env : Env) (b : System) (events : List Event) :
    counterexample_ids (after env b events) =
        counterexample_ids b ++ (feedback_runs env b events).flatMap new_counterexamples ∧
      gold_candidate_ids (after env b events) =
        gold_candidate_ids b ++ (feedback_runs env b events).flatMap new_gold_candidates := by
  induction events generalizing b with
  | nil => exact ⟨(List.append_nil _).symm, (List.append_nil _).symm⟩
  | cons event rest ih =>
    have hstep : after env b (event :: rest) = after env (perform env b event) rest := rfl
    rw [hstep, (ih _).1, (ih _).2]
    cases event with
    | feedback args =>
      obtain ⟨items, overrides, -, hran, hitems, hoverrides⟩ := run_ran env args b
      have hruns : feedback_runs env b (.feedback args :: rest) =
          run_of env args b :: feedback_runs env (perform env b (.feedback args)) rest := rfl
      have hnext : perform env b (.feedback args) = (run_of env args b).ended := rfl
      rw [hruns, List.flatMap_cons, List.flatMap_cons, hitems, hoverrides, hnext, hran.items.appended,
        hran.overrides.appended, List.append_assoc, List.append_assoc]
      exact ⟨rfl, rfl⟩
    | other change => exact ⟨rfl, rfl⟩

theorem owned_candidate {s t : Store} {dlq_id : String} (h : dlq_id ∈ candidate_dlq_ids t args)
    (howned : Owned s args.tenant_id dlq_id) : dlq_id ∈ candidate_dlq_ids s args := by
  unfold candidate_dlq_ids at *
  by_cases hall : args.dlq_ids = []
  · rw [if_pos hall]
    obtain ⟨item, hitem⟩ := howned
    unfold get_dlq_item at hitem
    obtain ⟨hstored, htenant⟩ := Option.filter_eq_some_iff.1 hitem
    rw [List.mem_map]
    refine ⟨item, ?_, s.dlq_items.key_of_get? hstored⟩
    unfold list_dlq_items
    rw [List.mem_insertionSort, List.mem_filter, Table.mem_values_iff]
    have hkey : item.dlq_id = dlq_id := s.dlq_items.key_of_get? hstored
    rw [hkey]
    exact ⟨hstored, htenant⟩
  · rw [if_neg hall] at h ⊢
    exact h

/-- With nothing new, the same run again adds nothing. -/
theorem repeat_adds_nothing {b c : System} {items overrides : List String} {ended c' : System}
    {items' overrides' : List String} (hran : Ran args b ended items overrides)
    (hagain : Ran args c c' items' overrides')
    (hitems : ∀ id ∈ counterexample_ids ended, id ∈ counterexample_ids c)
    (hgold : ∀ id ∈ gold_candidate_ids ended, id ∈ gold_candidate_ids c)
    (hnothing : NothingNew args.tenant_id b.world.store c.world.store) :
    items' = [] ∧ overrides' = [] := by
  have hitems_nodup : (counterexample_ids c').Nodup := Dict.keys_nodup _
  have hgold_nodup : (gold_candidate_ids c').Nodup := Dict.keys_nodup _
  rw [hagain.items.appended] at hitems_nodup
  rw [hagain.overrides.appended] at hgold_nodup
  constructor
  · rw [List.eq_nil_iff_forall_not_mem]
    intro dlq_id hin
    obtain ⟨_, hcandidate, howned, rfl⟩ := hagain.items.fitting dlq_id hin
    have hold := hnothing.items _ howned
    have hcaptured := hran.items.complete _ (owned_candidate hcandidate hold) hold
    exact (List.nodup_append.1 hitems_nodup).2.2 _ (hitems _ hcaptured) _ hin rfl
  · rw [List.eq_nil_iff_forall_not_mem]
    intro audit_id hin
    obtain ⟨log, hlog, hoverride, rfl⟩ := hagain.overrides.fitting audit_id hin
    have hold : log ∈ candidate_logs b.world.store args := by
      unfold candidate_logs at *
      by_cases hinclude : args.include_manual_override_candidates = true
      · rw [if_pos hinclude] at hlog ⊢
        exact hnothing.overrides log hlog hoverride
      · rw [if_neg hinclude] at hlog
        cases hlog
    have hcaptured := hran.overrides.complete log hold hoverride
    exact (List.nodup_append.1 hgold_nodup).2.2 _ (hgold _ hcaptured) _ hin rfl

/-! ## The law -/

theorem run_captures_once (env : Env) (args : FeedbackArgs) {b : System} {v : Nat × Nat × Nat}
    (hv : b.samples.dataset_version = version_text v) : CapturesOnce env (run_of env args b) := by
  obtain ⟨items, overrides, hresult, hran, hitems, hoverrides⟩ := run_ran env args b
  have hbefore : (run_of env args b).before = b := rfl
  constructor
  case counted =>
    rw [hitems, hoverrides]
    exact ⟨_, hresult, rfl, rfl⟩
  case counterexamples_grow =>
    rw [hitems, hran.items.appended, List.length_append, hbefore]
  case gold_grows =>
    rw [hoverrides, hran.overrides.appended, List.length_append, hbefore]
  case own_items =>
    rw [hitems]
    intro dlq_id hin
    obtain ⟨_, -, howned, rfl⟩ := hran.items.fitting dlq_id hin
    exact howned
  case own_overrides =>
    rw [hoverrides]
    intro audit_id hin
    obtain ⟨log, hlog, hoverride, hid⟩ := hran.overrides.fitting audit_id hin
    unfold candidate_logs at hlog
    by_cases hinclude : args.include_manual_override_candidates = true
    · rw [if_pos hinclude] at hlog
      exact ⟨log, hlog, hoverride, hid⟩
    · rw [if_neg hinclude] at hlog
      cases hlog
  case repeated =>
    intro events hnothing
    obtain ⟨items', overrides', hresult', hagain, -, -⟩ :=
      run_ran env args (after env (run_of env args b).ended events)
    have hids := after_ids env (run_of env args b).ended events
    obtain ⟨hno, hno'⟩ := repeat_adds_nothing hran hagain
      (fun id hin => hids.1 ▸ List.mem_append_left _ hin) (fun id hin => hids.2 ▸ List.mem_append_left _ hin)
      hnothing
    refine ⟨_, hresult', ?_, ?_⟩
    · rw [hno]
      rfl
    · rw [hno']
      rfl
  case version =>
    refine ⟨v, bumped args.version_bump v, hv, ?_, bumped_later _ v⟩
    rw [hran.version, hv, bump_text]

theorem runs_capture_once (env : Env) {b : System} {v : Nat × Nat × Nat}
    (hv : b.samples.dataset_version = version_text v) (events : List Event) :
    ∀ run ∈ feedback_runs env b events, CapturesOnce env run := by
  induction events generalizing b v with
  | nil =>
    intro run hin
    cases hin
  | cons event rest ih =>
    cases event with
    | feedback args =>
      have hfirst := run_captures_once env args hv
      obtain ⟨-, v', -, hv', -⟩ := hfirst.version
      intro run hin
      rcases List.mem_cons.1 hin with rfl | hin
      · exact hfirst
      · exact ih hv' run hin
    | other change => exact ih hv

/-- A run itself brings nothing new: its entry in the audit log is no override. -/
theorem nothing_new_at_once (env : Env) (args : FeedbackArgs) (b : System) :
    NothingNew args.tenant_id b.world.store (run_of env args b).ended.world.store := by
  obtain ⟨items, overrides, -, hran, -, -⟩ := run_ran env args b
  obtain ⟨entry, haction, hstore⟩ := hran.logged
  rw [hstore]
  refine ⟨fun dlq_id howned => howned, fun log hin hoverride => ?_⟩
  rcases List.mem_append.1 hin with hin | hin
  · exact hin
  · rw [List.mem_singleton.1 hin] at hoverride
    unfold is_override at hoverride
    rw [haction] at hoverride
    simp at hoverride

theorem repeated_at_once (env : Env) (args : FeedbackArgs) (b : System) :
    ∃ r, (run_data_feedback env args).result (run_of env args b).ended = .ok r ∧
      r.counterexample_added = 0 ∧ r.gold_candidates_added = 0 := by
  obtain ⟨items, overrides, -, hran, -, -⟩ := run_ran env args b
  obtain ⟨items', overrides', hresult, hagain, -, -⟩ := run_ran env args (run_of env args b).ended
  obtain ⟨hno, hno'⟩ := repeat_adds_nothing hran hagain (fun _ hin => hin) (fun _ hin => hin)
    (nothing_new_at_once env args b)
  refine ⟨_, hresult, ?_, ?_⟩
  · rw [hno]
    rfl
  · rw [hno']
    rfl

/-- Whatever operations stand between the runs, each run counts what it adds,
adds only what is its tenant's, and no sample is added twice. -/
theorem feedback_captures_once (env : Env) (w : World) (events : List Event) :
    (∀ run ∈ feedback_runs env (System.start w) events, CapturesOnce env run) ∧
      ((feedback_runs env (System.start w) events).flatMap new_counterexamples).Nodup ∧
      ((feedback_runs env (System.start w) events).flatMap new_gold_candidates).Nodup := by
  have hstart : (System.start w).samples.dataset_version = version_text (1, 0, 0) := by rfl
  obtain ⟨hcounterexamples, hgold⟩ := after_ids env (System.start w) events
  refine ⟨runs_capture_once env hstart events, ?_, ?_⟩
  · have hnodup : (counterexample_ids (after env (System.start w) events)).Nodup := Dict.keys_nodup _
    rw [hcounterexamples] at hnodup
    exact (List.nodup_append.1 hnodup).2.1
  · have hnodup : (gold_candidate_ids (after env (System.start w) events)).Nodup := Dict.keys_nodup _
    rw [hgold] at hnodup
    exact (List.nodup_append.1 hnodup).2.1

end bid_evaluation.feedback_laws
