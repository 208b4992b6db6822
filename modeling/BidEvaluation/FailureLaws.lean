-- The laws of a call that fails. A run that is refused has already given the
-- job a thread, and a parse job has a new manifest and one more run on the
-- counter by the time its status is checked.
import BidEvaluation.Endings

open dict_lib stepwise bid_evaluation.values bid_evaluation.core bid_evaluation.store_ops
  bid_evaluation.store_workflow bid_evaluation.store_admin bid_evaluation.job_run
  bid_evaluation.operations bid_evaluation.frames bid_evaluation.job_steps
  bid_evaluation.run_steps bid_evaluation.endings

namespace bid_evaluation.failure_laws

variable {env : Env} {w w' : World}

/-! ## A refused run -/

/-- The error of a run whose job cannot start. -/
def cannot_run (status : JobStatus) : PyErr :=
  .api ⟨"WF_STATE_TRANSITION_INVALID", "job cannot run from status: " ++ status.word,
    "business_rule", false, 409⟩

def SameCounters (w w' : World) : Prop :=
  w'.store.parser_retrieval_metrics = w.store.parser_retrieval_metrics

theorem counters_kept (change : ParseManifest → Act ParseManifest)
    (hchange : ∀ manifest, Keeps SameCounters (change manifest)) (job_id tenant_id : String) :
    Keeps SameCounters (change_manifest job_id tenant_id change) := by
  unfold change_manifest
  refine keeps_bind keeps_read fun s => ?_
  split
  · exact keeps_pure _
  · exact keeps_bind (hchange _) fun manifest => keeps_write fun _ => rfl

theorem counters_kept_at_start (env : Env) (manifest : ParseManifest) :
    Keeps SameCounters (started_manifest env manifest) := by
  have hfirst : Keeps SameCounters (first_start env manifest) := by
    unfold first_start
    split
    · exact keeps_pure _
    · exact keeps_bind (keeps_bind keeps_read fun _ => keeps_bind (keeps_write fun _ => rfl)
        fun _ => keeps_pure _) fun _ => keeps_pure _
  exact keeps_bind hfirst fun _ => keeps_pure _

/-- A job gets a thread when it has none. -/
structure Threaded (w t : World) (job job' : Job) : Prop where
  status : job'.status = job.status
  job_type : job'.job_type = job.job_type
  found : t.store.jobs.get? job.job_id = some job'
  counters : SameCounters w t
  thread : job'.thread_id ≠ ""
  same : job.thread_id ≠ "" → t = w

theorem new_thread.spec (kind : String) (w : World) :
    Meets AnyStep (new_thread_id env kind) w (fun r t => ∃ thread_id, r = .ok thread_id ∧
      thread_id ≠ "" ∧ t.store = w.store) := by
  unfold new_thread_id draw
  simp only [meets_bind, meets_read, meets_write, then_ok, meets_pure, any_step, true_and,
    Except.ok.injEq, exists_eq_left', and_true]
  intro h
  have hlength := congrArg String.length h
  simp [String.length_append] at hlength

theorem thread_job.spec {job : Job} (hstored : Stored w job) :
    Meets AnyStep (ensure_thread env job) w (fun r t => ∃ job', r = .ok job' ∧
      Threaded w t job job') := by
  unfold ensure_thread
  rw [meets_ite]
  constructor
  · intro hempty
    refine (new_thread.spec "job" w).bind ?_ ?_
    · rintro thread_id t ⟨_, ⟨⟩, hthread, hstore⟩
      unfold persist_job update
      simp only [meets_bind, meets_write, then_ok, meets_pure, any_step, true_and]
      refine ⟨_, rfl, rfl, rfl, Table.get?_put_self _ _, ?_, hthread, ?_⟩
      · unfold SameCounters
        simp [hstore]
      · intro hno
        exact absurd hempty hno
    · rintro e t ⟨_, ⟨⟩, -⟩
  · intro hthread
    rw [meets_pure]
    exact ⟨job, rfl, rfl, rfl, hstored, rfl, hthread, fun _ => rfl⟩

theorem start_parse.counts (env : Env) (job : Job) (tenant_id : String) (w : World) :
    Meets AnyStep (start_parse env job tenant_id) w (fun r t => (∃ u, r = .ok u) ∧
      (job.job_type = .parse → t.store.parser_retrieval_metrics.parse_runs_total =
        w.store.parser_retrieval_metrics.parse_runs_total + 1) ∧
      (job.job_type ≠ .parse → t = w)) := by
  unfold start_parse
  rw [meets_ite]
  constructor
  · intro htype
    have hkeeps : Keeps SameCounters
        (change_manifest job.job_id tenant_id (started_manifest env)) :=
      counters_kept _ (counters_kept_at_start env) _ _
    have hreturns : Returns (change_manifest job.job_id tenant_id (started_manifest env)) := by
      refine returns_change_manifest (fun manifest => ?_) _ _
      unfold started_manifest first_start
      refine returns_bind ?_ fun _ => returns_pure _
      split
      · exact returns_pure _
      · exact returns_utcnow env
    have hchange : Meets AnyStep (change_manifest job.job_id tenant_id (started_manifest env)) w
        (fun r t => SameCounters w t ∧ ∃ u, r = .ok u) :=
      ⟨keeps_true _ w, hkeeps.final (fun _ => rfl) (fun _ _ _ h h' => h'.trans h) w, hreturns w⟩
    refine hchange.bind ?_ ?_
    · intro u t h
      unfold update
      rw [meets_write]
      refine ⟨trivial, ⟨(), rfl⟩, fun _ => ?_, fun hno => absurd htype hno⟩
      unfold count_parse_run
      rw [← h.1]
    · intro e t h
      obtain ⟨-, u, hu⟩ := h
      cases hu
  · intro htype
    rw [meets_pure]
    exact ⟨⟨(), rfl⟩, fun h => absurd h htype, fun _ => rfl⟩

/-- What a refused run has changed when it raises. -/
structure Refused (w t : World) (job : Job) : Prop where
  thread : ∃ job', t.store.jobs.get? job.job_id = some job' ∧ job'.thread_id ≠ ""
  counted : job.job_type = .parse → t.store.parser_retrieval_metrics.parse_runs_total =
    w.store.parser_retrieval_metrics.parse_runs_total + 1
  same : job.thread_id ≠ "" → job.job_type ≠ .parse → t = w

theorem refused_run.spec {job : Job} {tenant_id : String} (env : Env) (flags : RunFlags)
    (hv : Visible w job (some tenant_id)) (hno : ¬ Startable job.status) :
    Meets AnyStep (run_job_once env job.job_id tenant_id flags) w (fun r t =>
      r = .error (cannot_run job.status) ∧ Refused w t job) := by
  have hbegin : Meets AnyStep (begin_run env job.job_id tenant_id) w (fun r t =>
      r = .error (cannot_run job.status) ∧ Refused w t job) := by
    have hrequire : Meets AnyStep (require_job job.job_id (some tenant_id)) w _ :=
      require_job.spec w job.job_id (some tenant_id)
    unfold begin_run
    refine hrequire.bind ?_ ?_
    · rintro found t ⟨rfl, hfound⟩
      obtain ⟨hid, hv'⟩ := (hfound found).1 rfl
      cases hv.stored.unique hv'.stored hid
      refine (thread_job.spec hv.stored).bind ?_ (by rintro e t' ⟨job', he, -⟩; cases he)
      rintro job' t₁ ⟨_, ⟨⟩, hthreaded⟩
      have hstart : ¬ can_start job'.status = true := by
        rw [hthreaded.status]
        exact fun h => hno (.inl h)
      unfold move_to_running
      rw [if_neg hstart, meets_bind, meets_pure, then_ok]
      have hcounts := start_parse.counts env job' tenant_id t₁
      have hframe : Meets AnyStep (start_parse env job' tenant_id) t₁ _ :=
        ends_touches (K := []) (touches_start_parse env _ _) t₁
      refine (hcounts.and hframe).bind ?_ ?_
      · rintro u t₂ ⟨⟨-, hparse, hother⟩, hf⟩
        have hstopped : ¬ job'.status = .running := by
          rw [hthreaded.status]
          exact fun h => hno (.inr h)
        unfold require_running
        rw [if_neg hstopped, meets_bind, raise_api, meets_raise, then_error, hthreaded.status]
        refine ⟨rfl, ⟨job', ?_, hthreaded.thread⟩, fun htype => ?_, fun hthread htype => ?_⟩
        · have hjobs : t₂.store.jobs = t₁.store.jobs := hf.same .jobs (by simp)
          rw [hjobs]
          exact hthreaded.found
        · rw [hparse (hthreaded.job_type.trans htype), hthreaded.counters]
        · rw [hother (by rw [hthreaded.job_type]; exact htype), hthreaded.same hthread]
      · rintro e t₂ ⟨⟨⟨u, hu⟩, -⟩, -⟩
        cases hu
    · rintro e t ⟨rfl, hfound⟩
      exact absurd ((hfound job).2 ⟨rfl, hv⟩) (by simp)
  unfold run_job_once
  refine any_saving (hbegin.bind ?_ ?_) ?_
  · rintro job' t ⟨he, -⟩
    cases he
  · rintro e t ⟨⟨⟩, hrefused⟩
    exact ⟨rfl, hrefused⟩
  · rintro result t t' ⟨he, -⟩
    cases he

/-- If the run is refused for the status of its job, the store is as it was
before the call. -/
def RefusalChangesNothing (env : Env) (w : World) (job_id tenant_id : String)
    (flags : RunFlags) : Prop :=
  ∀ e : ApiError, (run_job_once env job_id tenant_id flags).result w = .error (.api e) →
    e.code = "WF_STATE_TRANSITION_INVALID" →
    ((run_job_once env job_id tenant_id flags).final w).store = w.store

/-- A job that the tenant may not see is not touched. -/
theorem hidden_run_changes_nothing {job : Job} {tenant_id : String} {flags : RunFlags}
    (hstored : Stored w job) (hv : ¬ Visible w job (some tenant_id)) :
    (run_job_once env job.job_id tenant_id flags).final w = w := by
  have hrequire : Meets AnyStep (require_job job.job_id (some tenant_id)) w _ :=
    require_job.spec w job.job_id (some tenant_id)
  have hhidden : ∀ found, found.job_id = job.job_id → ¬ Visible w found (some tenant_id) := by
    intro found hid hfound
    cases hstored.unique hfound.stored hid
    exact hv hfound
  have hrun : Meets AnyStep (run_job_once env job.job_id tenant_id flags) w (fun r t =>
      (∃ e, r = .error e) ∧ t = w) := by
    unfold run_job_once begin_run
    refine any_saving ((hrequire.bind ?_ ?_ : Meets AnyStep _ w (fun r t =>
      (∃ e, r = .error e) ∧ t = w)).bind ?_ ?_) ?_
    · intro found t h
      obtain ⟨hid, hfound⟩ := (h.2 found).1 rfl
      exact absurd hfound (hhidden found hid)
    · intro e t h
      exact ⟨⟨e, rfl⟩, h.1⟩
    · rintro job' t ⟨⟨e, he⟩, -⟩
      cases he
    · intro e t h
      exact ⟨⟨e, rfl⟩, h.2⟩
    · rintro result t t' ⟨⟨e, he⟩, -⟩
      cases he
  exact hrun.2.2

/-! ## The laws -/

/-- A refused run of a job that is past its start changes nothing exactly when
the job has a thread and is no parse job, or is hidden from the tenant. -/
theorem refusal_changes_nothing_iff (env : Env) (w : World) (job : Job) (tenant_id : String)
    (flags : RunFlags) (hstored : Stored w job)
    (hstatus : job.status ∉
      [JobStatus.queued, .retrying, .needs_manual_decision, .running]) :
    RefusalChangesNothing env w job.job_id tenant_id flags ↔
      (Visible w job (some tenant_id) → job.thread_id ≠ "" ∧ job.job_type ≠ .parse) := by
  have hstart : ¬ Startable job.status := by
    rintro (h | h)
    · unfold can_start at h
      simp at h hstatus
      tauto
    · simp [h] at hstatus
  by_cases hv : Visible w job (some tenant_id)
  · obtain ⟨he, hrefused⟩ := (refused_run.spec env flags hv hstart).2
    constructor
    · intro h _
      have hsame := h _ he rfl
      constructor
      · obtain ⟨job', hfound, hthread⟩ := hrefused.thread
        rw [hsame, hv.stored] at hfound
        cases hfound
        exact hthread
      · intro htype
        have hcounted := hrefused.counted htype
        rw [hsame] at hcounted
        omega
    · intro h e _ _
      obtain ⟨hthread, htype⟩ := h hv
      rw [hrefused.same hthread htype]
  · refine ⟨fun _ h => absurd h hv, fun _ e _ _ => ?_⟩
    rw [hidden_run_changes_nothing hstored hv]

/-- A parse job that has succeeded. -/
def parsed : World :=
  after calm_env World.start [.upload bid_file false,
    .run_job_once "job_a" "tenant" RunFlags.default]

/-- An evaluation job that has failed. -/
def failed : World :=
  after calm_env World.start [.create_evaluation_job ⟨"tenant", "trace", "project", "supplier",
    "v1", ⟨[], true⟩⟩, .run_job_once "job_a" "tenant" ⟨true, false, none⟩]

theorem refused_evaluation_changes_nothing :
    RefusalChangesNothing calm_env failed "job_a" "tenant" RunFlags.default := by
  have hfound : (failed.store.jobs.get? "job_a").map (fun job =>
      (job.job_type, job.status, decide (job.thread_id = ""))) =
      some (.evaluation, .failed, false) := by decide +kernel
  obtain ⟨job, hjob, hparts⟩ := Option.map_eq_some_iff.1 hfound
  simp only [Prod.mk.injEq, decide_eq_false_iff_not] at hparts
  obtain ⟨htype, hstatus, hthread⟩ := hparts
  have hid : job.job_id = "job_a" := Table.key_of_get? _ hjob
  rw [← hid] at hjob ⊢
  refine (refusal_changes_nothing_iff calm_env failed job "tenant" _ hjob ?_).2 fun _ => ?_
  · rw [hstatus]
    decide
  · refine ⟨hthread, ?_⟩
    rw [htype]
    decide

/-- The second run is refused, and the parse runs have gone up by one. -/
theorem refused_parse_run_is_counted :
    ¬ RefusalChangesNothing calm_env parsed "job_a" "tenant" RunFlags.default := by
  intro h
  have hfound : (parsed.store.jobs.get? "job_a").map (fun job =>
      (job.job_type, job.status, job.tenant_id)) = some (.parse, .succeeded, "tenant") := by
    decide +kernel
  obtain ⟨job, hjob, hparts⟩ := Option.map_eq_some_iff.1 hfound
  simp only [Prod.mk.injEq] at hparts
  obtain ⟨htype, hstatus, htenant⟩ := hparts
  have hid : job.job_id = "job_a" := Table.key_of_get? _ hjob
  rw [← hid] at hjob h
  have hv : Visible parsed job (some "tenant") := by
    refine ⟨hjob, ?_⟩
    rintro tenant_id ⟨⟩
    exact htenant
  have hstart : ¬ Startable job.status := by
    unfold Startable
    rw [hstatus]
    decide
  obtain ⟨he, hrefused⟩ := (refused_run.spec calm_env RunFlags.default hv hstart).2
  have hcounted := hrefused.counted htype
  rw [h _ he rfl] at hcounted
  omega

end bid_evaluation.failure_laws
