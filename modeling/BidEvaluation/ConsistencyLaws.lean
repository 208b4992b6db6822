-- The laws of the comparison of two backends: what it says of a section is
-- true of the values there, and two stores that it finds alike come up alike.
import BidEvaluation.BackendConsistency

open dict_lib bid_evaluation.values bid_evaluation.snapshots bid_evaluation.json_dumps
  bid_evaluation.backend_consistency bid_evaluation.snapshot_laws
open bid_evaluation.core (Env)
open bid_evaluation.audit_laws (canon canonItems)

namespace bid_evaluation.consistency_laws

variable {env : Env} {sqlite_payload postgres_payload : PyDict}

/-! ## The loop -/

/-- The sections with two texts, in the order of the list. -/
def Apart (env : Env) (sqlite_payload postgres_payload : PyDict) (key : String) : Bool :=
  !(compare_section env sqlite_payload postgres_payload key).is_matched

theorem compared_sections (keys : List String) (report : List String × List SectionRow) :
    keys.foldl (add_section env sqlite_payload postgres_payload) report =
      (report.1 ++ keys.filter (Apart env sqlite_payload postgres_payload),
        report.2 ++ keys.map (compare_section env sqlite_payload postgres_payload)) := by
  induction keys generalizing report with
  | nil => simp
  | cons key rest ih =>
    rw [List.foldl_cons, ih, List.filter_cons, List.map_cons]
    unfold add_section Apart
    cases hmatched : (compare_section env sqlite_payload postgres_payload key).is_matched
    · simp [hmatched]
    · simp [hmatched]

variable (sections : Option (List String))

theorem mismatch_sections_eq :
    (compare_store_payloads env sqlite_payload postgres_payload sections).mismatch_sections =
      (sections_or_default sections).filter (Apart env sqlite_payload postgres_payload) := by
  unfold compare_store_payloads
  rw [compared_sections]
  rfl

theorem all_matched_eq :
    (compare_store_payloads env sqlite_payload postgres_payload sections).all_matched = true ↔
      (compare_store_payloads env sqlite_payload postgres_payload sections).mismatch_sections =
        [] := by
  unfold compare_store_payloads
  rw [decide_eq_true_iff, List.length_eq_zero_iff]

/-! ## What the report says -/

/-- A section that is said to differ does, and no other one. -/
theorem apart_iff (hf : FloatTexts env) (key : String) :
    Apart env sqlite_payload postgres_payload key = true ↔
      ¬ Same (sqlite_payload.get key) (postgres_payload.get key) := by
  unfold Apart compare_section canonical_hash
  rw [← dumps_eq_iff hf, Bool.not_eq_true', decide_eq_false_iff_not]

theorem mem_mismatch_iff (hf : FloatTexts env) (key : String) :
    key ∈ (compare_store_payloads env sqlite_payload postgres_payload sections).mismatch_sections ↔
      key ∈ sections_or_default sections ∧
        ¬ Same (sqlite_payload.get key) (postgres_payload.get key) := by
  rw [mismatch_sections_eq, List.mem_filter, apart_iff hf]

theorem all_matched_iff (hf : FloatTexts env) :
    (compare_store_payloads env sqlite_payload postgres_payload sections).all_matched = true ↔
      ∀ key ∈ sections_or_default sections,
        Same (sqlite_payload.get key) (postgres_payload.get key) := by
  rw [all_matched_eq, List.eq_nil_iff_forall_not_mem]
  constructor
  · intro h key hkey
    by_contra hno
    exact h key ((mem_mismatch_iff sections hf key).2 ⟨hkey, hno⟩)
  · intro h key hmem
    obtain ⟨hkey, hno⟩ := (mem_mismatch_iff sections hf key).1 hmem
    exact hno (h key hkey)

/-! ## Stores -/

/-- The collections that are compared when no sections are named. -/
def compared : List Collection :=
  [.jobs, .documents, .document_chunks, .projects, .suppliers, .rule_packs, .evaluation_reports,
    .parse_manifests, .workflow_checkpoints, .dlq_items, .domain_events_outbox,
    .outbox_delivery_records]

theorem mem_default_sections (key : String) :
    key ∈ default_sections ↔ key = "audit_logs" ∨ ∃ c ∈ compared, c.name = key := by
  simp only [default_sections, compared, List.mem_cons, List.not_mem_nil, or_false,
    exists_eq_or_imp, exists_eq_left, Collection.name, eq_comm (a := key)]
  tauto

/-- The two stores have the same JSON wherever it is compared. -/
structure AlikeStores (s t : Store) : Prop where
  collections : ∀ c ∈ compared, Same (.dict (s.get c)) (.dict (t.get c))
  audit_logs : Same (.list s.get_audit_logs) (.list t.get_audit_logs)

/-- The store that comes up on what this one has saved. -/
def come_up (s : Store) : Store := fresh.move (.restart (some (state_snapshot s)))

theorem loaded_get {s : Store} {key : String} {value : PyVal}
    (h : (key, value) ∈ state_snapshot s) :
    (load_store_payload (some (state_snapshot s))).get key = canon value :=
  (snapshot_read_back h).1

theorem same_canon {v v' : PyVal} : Same (canon v) (canon v') ↔ Same v v' := by
  unfold Same
  rw [canon_canon, canon_canon]

theorem audit_logs_in_snapshot (s : Store) :
    ("audit_logs", .list s.get_audit_logs) ∈ state_snapshot s := by simp [state_snapshot]

variable {s t : Store}

theorem stores_matched_iff (hf : FloatTexts env) :
    (compare_stores env s t).all_matched = true ↔ AlikeStores s t := by
  unfold compare_stores
  rw [all_matched_iff none hf]
  constructor
  · intro h
    constructor
    · intro c hc
      have hsection := h c.name ((mem_default_sections _).2 (.inr ⟨c, hc, rfl⟩))
      rw [loaded_get (collection_in_snapshot s c),
        loaded_get (collection_in_snapshot t c)] at hsection
      exact same_canon.1 hsection
    · have hsection := h "audit_logs" ((mem_default_sections _).2 (.inl rfl))
      rw [loaded_get (audit_logs_in_snapshot s), loaded_get (audit_logs_in_snapshot t)] at hsection
      exact same_canon.1 hsection
  · intro h key hkey
    rcases (mem_default_sections key).1 hkey with rfl | ⟨c, hc, rfl⟩
    · rw [loaded_get (audit_logs_in_snapshot s), loaded_get (audit_logs_in_snapshot t)]
      exact same_canon.2 h.audit_logs
    · rw [loaded_get (collection_in_snapshot s c), loaded_get (collection_in_snapshot t c)]
      exact same_canon.2 (h.collections c hc)

theorem round_trip_same {entries entries' : PyDict} (h : Same (.dict entries) (.dict entries')) :
    json_round_trip entries = json_round_trip entries' := by
  unfold json_round_trip
  rw [h]

/-- What alike stores have saved shows alike. -/
theorem alike_come_up (h : AlikeStores s t) :
    (∀ c ∈ compared, (come_up s).get c = (come_up t).get c) ∧
      (come_up s).get_audit_logs = (come_up t).get_audit_logs := by
  constructor
  · intro c hc
    exact (restored_collection s c).trans
      ((round_trip_same (h.collections c hc)).trans (restored_collection t c).symm)
  · have hlogs := h.audit_logs
    unfold Same at hlogs
    rw [canon, canon] at hlogs
    exact (restored_audit_logs s).trans ((PyVal.list.inj hlogs).trans (restored_audit_logs t).symm)

/-- The comparison of two saved states tells exactly the sections that differ,
in the order that was asked for. Two stores that it finds alike have the same
collections and the same audit log once they come up from what they saved. -/
theorem matched_stores_come_up_alike (hf : FloatTexts env) :
    (∀ sqlite_payload postgres_payload sections,
      let report := compare_store_payloads env sqlite_payload postgres_payload sections
      report.mismatch_sections.Sublist (sections_or_default sections) ∧
        (∀ key, key ∈ report.mismatch_sections ↔ key ∈ sections_or_default sections ∧
          ¬ Same (sqlite_payload.get key) (postgres_payload.get key)) ∧
        (report.all_matched = true ↔ report.mismatch_sections = [])) ∧
      ∀ s t : Store, ((compare_stores env s t).all_matched = true ↔ AlikeStores s t) ∧
        ((compare_stores env s t).all_matched = true →
          (∀ c ∈ compared, (come_up s).get c = (come_up t).get c) ∧
            (come_up s).get_audit_logs = (come_up t).get_audit_logs) := by
  refine ⟨fun sqlite_payload postgres_payload sections => ⟨?_, ?_, ?_⟩, fun s t => ⟨?_, ?_⟩⟩
  · rw [mismatch_sections_eq]
    exact List.filter_sublist
  · exact mem_mismatch_iff sections hf
  · exact all_matched_eq sections
  · exact stores_matched_iff hf
  · exact fun hmatched => alike_come_up ((stores_matched_iff hf).1 hmatched)

/-- One job, and a project that is not in both states. -/
def job_state : PyDict :=
  [("jobs", .dict [("job_1", .dict [("status", .str "queued"), ("retry_count", .int 0)])]),
    ("projects", .dict [("prj_1", .dict [])])]

/-- The keys of the job stand in another order, and the project is missing. -/
def other_job_state : PyDict :=
  [("projects", .dict []),
    ("jobs", .dict [("job_1", .dict [("retry_count", .int 0), ("status", .str "queued")])])]

def job_report : ComparisonReport :=
  compare_store_payloads fraction_env job_state other_job_state (some ["jobs", "projects"])

theorem order_of_keys_is_no_difference :
    job_report.all_matched = false ∧ "projects" ∈ job_report.mismatch_sections ∧
      "jobs" ∉ job_report.mismatch_sections := by
  obtain ⟨-, hmem, hall⟩ := (matched_stores_come_up_alike fraction_texts).1 job_state
    other_job_state (some ["jobs", "projects"])
  have hprojects : "projects" ∈ job_report.mismatch_sections := by
    refine (hmem "projects").2 ⟨by decide, fun hsame => ?_⟩
    have hdict : canon (.dict [("prj_1", .dict [])]) = canon (.dict []) := hsame
    rw [canon_dict, canon_dict] at hdict
    cases hdict
  refine ⟨?_, hprojects, fun hjobs => ?_⟩
  · rw [Bool.eq_false_iff]
    intro hmatched
    have hnone : job_report.mismatch_sections = [] := hall.1 hmatched
    rw [hnone] at hprojects
    cases hprojects
  · have hsame : Same (job_state.get "jobs") (other_job_state.get "jobs") :=
      (dumps_eq_iff fraction_texts).1 (by decide +kernel)
    exact ((hmem "jobs").1 hjobs).2 hsame

end bid_evaluation.consistency_laws
