-- What one run of a job does to its job: each branch of `run_job_once`, and
-- the run as a whole. The specs say where the job ends, whether the run
-- returned or raised.
import BidEvaluation.JobSteps

open dict_lib stepwise bid_evaluation.values bid_evaluation.core bid_evaluation.store_ops
  bid_evaluation.store_workflow bid_evaluation.store_admin bid_evaluation.store_parse
  bid_evaluation.langgraph_runtime bid_evaluation.store_eval bid_evaluation.job_run
  bid_evaluation.frames bid_evaluation.job_steps

namespace bid_evaluation.run_steps

/-! ## Writes that always return -/

theorem returns_draw : Returns draw :=
  returns_bind returns_read fun _ => returns_bind (returns_write _) fun _ => returns_pure _

theorem returns_uuid4 (env : Env) : Returns (uuid4_hex12 env) :=
  returns_bind returns_draw fun _ => returns_pure _

theorem returns_utcnow (env : Env) : Returns (utcnow env) :=
  returns_bind returns_draw fun _ => returns_pure _

theorem returns_new_thread_id (env : Env) (kind : String) : Returns (new_thread_id env kind) :=
  returns_bind returns_draw fun _ => returns_pure _

theorem returns_checkpoint (env : Env) (thread_id job_id tenant_id node status : String)
    (payload : PyDict) :
    Returns (append_workflow_checkpoint env thread_id job_id tenant_id node status payload) :=
  returns_bind (returns_uuid4 env) fun _ => returns_bind (returns_utcnow env) fun _ =>
    returns_write _

theorem returns_checkpoints (env : Env) (thread_id : String) (job : Job) (tenant_id : String)
    (nodes : List (String × String × PyDict)) :
    Returns (append_checkpoints env thread_id job tenant_id nodes) :=
  returns_foldlM (fun _ _ => returns_checkpoint env _ _ _ _ _ _) () nodes

theorem returns_change_manifest {change : ParseManifest → Act ParseManifest}
    (h : ∀ m, Returns (change m)) (job_id tenant_id : String) :
    Returns (change_manifest job_id tenant_id change) := by
  refine returns_bind returns_read fun w => ?_
  split
  · exact returns_pure _
  · exact returns_bind (h _) fun _ => returns_write _

theorem returns_start_parse (env : Env) (job : Job) (tenant_id : String) :
    Returns (start_parse env job tenant_id) := by
  refine returns_ite (returns_bind (returns_change_manifest (fun m => ?_) _ _) fun _ =>
    returns_write _) (returns_pure _)
  refine returns_bind ?_ fun _ => returns_pure _
  unfold first_start
  split
  · exact returns_pure _
  · exact returns_utcnow env

theorem returns_thread_of (env : Env) (job : Job) (kind : String) :
    Returns (thread_of env job kind) :=
  returns_ite (returns_new_thread_id env kind) (returns_pure _)

variable {env : Env} {guard : World → Job → Prop}

/-- Go past a program outside the job table. -/
theorem past {K : List Part} {m : Act α} {f : α → Act β} {w : World}
    {Q : Except PyErr β → World → Prop} (h : Touches K m) (hK : K ⊆ aside)
    (hok : ∀ a t, Frame K w t → Meets (Step env guard) (f a) t Q)
    (herror : ∀ e t, Frame K w t → Q (.error e) t) : Meets (Step env guard) (m >>= f) w Q :=
  (meets_touches h hK).bind hok herror

/-- The same for a program that always returns. -/
theorem past_calm {m : Act α} {f : α → Act β} {w : World} {Q : Except PyErr β → World → Prop}
    (h : Touches [] m) (hr : Returns m)
    (hok : ∀ a t, Frame [] w t → Meets (Step env guard) (f a) t Q) :
    Meets (Step env guard) (m >>= f) w Q := by
  have hboth : Meets (Step env guard) m w (fun r t => Frame [] w t ∧ ∃ a, r = .ok a) :=
    ⟨keeps_step_of_touches (h.widen (by simp)) w, h.frame w, hr w⟩
  refine hboth.bind (fun a t ht => hok a t ht.1) ?_
  rintro e t ⟨-, a, ha⟩
  cases ha

/-- Go past a note on a job that is stored. -/
theorem past_note {w : World} {job job' : Job} {f : Job → Act β} {Q : Except PyErr β → World → Prop}
    (hjob : Stored w job) (hsame : SameJob job job') (hstatus : job'.status = job.status)
    (hok : ∀ t, Put w t job' → Meets (Step env guard) (f job') t Q) :
    Meets (Step env guard) (persist_job job' >>= f) w Q := by
  refine (persist_job.note hjob hsame hstatus).bind ?_ (by rintro e t ⟨he, -⟩; cases he)
  rintro _ t ⟨⟨⟩, hput⟩
  exact hok t hput

/-! ## The start -/

/-- The job as a run has it later: the same job, stored. -/
structure Became (K : List Part) (w w' : World) (job job' : Job) : Prop where
  same : SameJob job job'
  stored : Stored w' job'
  frame : Frame K w w'

theorem Became.visible {K : List Part} {w w' : World} {job job' : Job} {tenant_id : Option String}
    (h : Became K w w' job job') (hv : Visible w job tenant_id) : Visible w' job' tenant_id :=
  ⟨h.stored, fun t ht => h.same.tenant_id.trans (hv.scope t ht)⟩

theorem Became.trans {K : List Part} {w w' w'' : World} {a b c : Job} (h : Became K w w' a b)
    (h' : Became K w' w'' b c) : Became K w w'' a c :=
  ⟨h.same.trans h'.same, h'.stored, h.frame.trans h'.frame⟩

theorem Became.later {K K' : List Part} {w w' w'' : World} {a b : Job} (h : Became K w w' a b)
    (hf : Frame K' w' w'') (hK : .jobs ∉ K') (hsub : K' ⊆ K) : Became K w w'' a b :=
  ⟨h.same, h.stored.frame hf hK, h.frame.trans (hf.mono hsub)⟩

theorem Became.of_put {w w' : World} {job job' : Job} (h : Put w w' job') (hs : SameJob job job') :
    Became [.jobs] w w' job job' := ⟨hs, h.stored, h.frame⟩

/-- The statuses from which a run goes on. -/
def Startable (status : JobStatus) : Prop := can_start status = true ∨ status = .running

theorem ensure_thread.spec {w : World} {job : Job} (hs : Stored w job) :
    Meets (Step env guard) (ensure_thread env job) w (fun r w' => ∃ job', r = .ok job' ∧
      Became [.jobs] w w' job job' ∧ job'.status = job.status ∧
      job'.retry_count = job.retry_count) := by
  unfold ensure_thread
  rw [meets_ite]
  refine ⟨fun _ => ?_, fun _ => ?_⟩
  · refine past_calm (touches_new_thread_id env "job") (returns_new_thread_id env "job") ?_
    intro thread_id t hf
    have hsame : SameJob job { job with thread_id := thread_id } :=
      ⟨rfl, rfl, rfl, rfl, rfl, rfl⟩
    refine (persist_job.note (hs.frame hf (by simp)) hsame rfl).post ?_
    rintro r t' ⟨rfl, hput⟩
    exact ⟨_, rfl, ⟨hsame, hput.stored, (hf.mono (by simp)).trans hput.frame⟩, rfl, rfl⟩
  · rw [meets_pure]
    exact ⟨job, rfl, ⟨SameJob.refl job, hs, Frame.refl w⟩, rfl, rfl⟩

/-- Only the move to `dlq_recorded` and new jobs are guarded. -/
def FreeMoves (guard : World → Job → Prop) : Prop :=
  ∀ w job, job.status ≠ .dlq_recorded → job.status ≠ .queued → guard w job

theorem edge_to_running {status : JobStatus} (h : can_start status = true) :
    JobStatus.running ∈ ALLOWED_TRANSITIONS status := by
  cases status <;> simp_all [can_start, ALLOWED_TRANSITIONS]

/-- A move of a visible job along an edge. -/
theorem transition_job_status.became {w : World} {job : Job} {status : JobStatus}
    {tenant_id : String} (hv : Visible w job (some tenant_id))
    (hedge : status ∈ ALLOWED_TRANSITIONS job.status) (hguard : guard w (moved job status)) :
    Meets (Step env guard) (transition_job_status env job.job_id status (some tenant_id)) w
      (fun r w' => r = .ok (moved job status) ∧ Became [.jobs] w w' job (moved job status)) := by
  refine (transition_job_status.edge hv hedge hguard).post ?_
  rintro r w' ⟨hr, hput⟩
  exact ⟨hr, .of_put hput (moved_same job status)⟩

variable (hfree : FreeMoves guard)
include hfree

theorem move_to_running.spec {w : World} {job : Job} {tenant_id : String}
    (hv : Visible w job (some tenant_id)) :
    Meets (Step env guard) (move_to_running env job tenant_id) w (fun r w' =>
      ∃ job', r = .ok job' ∧ Became [.jobs] w w' job job' ∧ job'.retry_count = job.retry_count ∧
        job'.status = if can_start job.status then .running else job.status) := by
  unfold move_to_running
  rw [meets_ite]
  refine ⟨fun hstart => ?_, fun hno => ?_⟩
  · have hguard : guard w (moved job .running) := hfree _ _ (by simp [moved]) (by simp [moved])
    refine (transition_job_status.became hv (edge_to_running hstart) hguard).bind ?_ ?_
    · rintro running t ⟨hrunning, hb⟩
      cases hrunning
      refine past_calm (touches_checkpoint env _ _ _ _ _ _) (returns_checkpoint env _ _ _ _ _ _) ?_
      intro u t' hf
      rw [meets_pure]
      exact ⟨_, rfl, hb.later hf (by simp) (by simp), rfl, by simp [hstart, moved]⟩
    · rintro e t ⟨he, -⟩
      cases he
  · rw [meets_pure]
    exact ⟨job, rfl, ⟨SameJob.refl job, hv.stored, Frame.refl w⟩, rfl, by simp [hno]⟩

/-- The start of a run: a visible job in a status from which it can start
ends up running, and any other call raises and leaves the status. -/
theorem begin_run.spec (w : World) (job_id tenant_id : String) :
    Meets (Step env guard) (begin_run env job_id tenant_id) w (fun r w' =>
      Frame [.jobs] w w' ∧
      match r with
      | .ok job' => ∃ job, job.job_id = job_id ∧ Visible w job (some tenant_id) ∧
          Startable job.status ∧ Became [.jobs] w w' job job' ∧ job'.status = .running ∧
          job'.retry_count = job.retry_count
      | .error _ => ∀ job, job.job_id = job_id → Stored w job →
          (∃ job', Became [.jobs] w w' job job' ∧ job'.status = job.status) ∧
          (Visible w job (some tenant_id) → ¬ Startable job.status)) := by
  unfold begin_run
  refine (require_job.spec w job_id (some tenant_id)).bind ?_ ?_
  · rintro job t ⟨rfl, hjob⟩
    obtain ⟨hid, hv⟩ := (hjob job).1 rfl
    refine (ensure_thread.spec hv.stored).bind ?_ (by rintro e t' ⟨job', he, -⟩; cases he)
    rintro job₁ t₁ ⟨_, ⟨⟩, hb₁, hstatus₁, hretry₁⟩
    refine (move_to_running.spec hfree (hb₁.visible hv)).bind ?_
      (by rintro e t' ⟨job', he, -⟩; cases he)
    rintro job₂ t₂ ⟨_, ⟨⟩, hb₂, hretry₂, hstatus₂⟩
    refine past_calm (touches_start_parse env _ _) (returns_start_parse env _ _) ?_
    intro _ t₃ hf
    have hb : Became [.jobs] t t₃ job job₂ := (hb₁.trans hb₂).later hf (by simp) (by simp)
    rw [hstatus₁] at hstatus₂
    simp only [require_running, meets_bind, meets_ite, raise_api, meets_raise, then_error, then_ok,
      meets_pure]
    refine ⟨fun hrunning => ⟨hb.frame, job, hid, hv, ?_, hb, hrunning, hretry₂.trans hretry₁⟩,
      fun hno => ⟨hb.frame, fun found hf hs => ?_⟩⟩
    · by_cases hstart : can_start job.status = true
      · exact .inl hstart
      · simp only [hstart, Bool.false_eq_true, if_false] at hstatus₂
        exact .inr (hstatus₂ ▸ hrunning)
    · have hstart : ¬ can_start job.status = true := by
        intro hstart
        simp only [hstart, if_true] at hstatus₂
        exact hno hstatus₂
      simp only [hstart, Bool.false_eq_true, if_false] at hstatus₂
      cases hv.stored.unique hs (hf.trans hid.symm)
      refine ⟨⟨job₂, hb, hstatus₂⟩, fun _ => ?_⟩
      rintro (hc | hc)
      · exact hstart hc
      · exact hno (hstatus₂.trans hc)
  · rintro e t ⟨rfl, hjob⟩
    refine ⟨Frame.refl t, fun job hid hs => ⟨⟨job, ⟨SameJob.refl job, hs, Frame.refl t⟩, rfl⟩, ?_⟩⟩
    intro hv
    exact absurd ((hjob job).2 ⟨hid, hv⟩) (by simp)

/-! ## The retry -/

omit hfree in
theorem returns_retry_manifest (job : Job) (tenant_id error_code : String) :
    Returns (change_parse_manifest job tenant_id (retry_manifest error_code)) :=
  returns_ite (returns_change_manifest (fun _ => returns_pure _) _ _) (returns_pure _)

/-- A retry always returns, and its job is left `retrying`. -/
theorem retry_job.spec {w : World} {job : Job} {tenant_id : String} (error_code : String)
    (hv : Visible w job (some tenant_id)) (hrunning : job.status = .running) :
    Meets (Step env guard) (retry_job env job tenant_id error_code) w (fun r w' =>
      ∃ result job', r = .ok result ∧ result.final_status = .retrying ∧
        Became [.jobs] w w' job job' ∧ job'.status = .retrying) := by
  unfold retry_job
  have hedge : JobStatus.retrying ∈ ALLOWED_TRANSITIONS job.status := by
    rw [hrunning]
    decide
  refine (transition_job_status.became hv hedge
    (hfree _ _ (by simp [moved]) (by simp [moved]))).bind ?_ (by rintro e t ⟨he, -⟩; cases he)
  rintro _ t₁ ⟨⟨⟩, hb₁⟩
  refine past_calm (touches_utcnow env) (returns_utcnow env) fun now t₂ hf₂ => ?_
  refine past_calm (touches_utcnow env) (returns_utcnow env) fun occurred_at t₃ hf₃ => ?_
  have hb₃ := (hb₁.later hf₂ (by simp) (by simp)).later hf₃ (by simp) (by simp)
  refine past_note hb₃.stored ⟨rfl, rfl, rfl, rfl, rfl, rfl⟩ rfl fun t₄ hput => ?_
  have hb₄ := hb₃.trans (.of_put hput ⟨rfl, rfl, rfl, rfl, rfl, rfl⟩)
  refine past_calm (touches_change_parse_manifest (fun _ => keeps_pure _) _ _)
    (returns_retry_manifest _ _ _) fun _ t₅ hf₅ => ?_
  refine past_calm (touches_checkpoint env _ _ _ _ _ _) (returns_checkpoint env _ _ _ _ _ _)
    fun _ t₆ hf₆ => ?_
  rw [meets_pure]
  exact ⟨_, _, rfl, rfl, (hb₄.later hf₅ (by simp) (by simp)).later hf₆ (by simp) (by simp), rfl⟩

/-! ## The failure -/

omit hfree in
/-- A new item has a name that no item has. -/
theorem seed_dlq_item.spec {w : World} (hn : Named env w)
    (job_id error_class error_code tenant_id : String) :
    Meets (Step env guard) (seed_dlq_item env job_id error_class error_code tenant_id) w
      (fun r w' => ∃ item, r = .ok item ∧ item.job_id = job_id ∧ item.tenant_id = tenant_id ∧
        w'.store.dlq_items.get? item.dlq_id = some item ∧ Frame [.dlq] w w') := by
  unfold seed_dlq_item
  refine meets_saving ((uuid4_hex12.spec w).bind ?_ (by rintro e t ⟨he, -⟩; cases he)) ?_
  · rintro hex t ⟨⟨⟩, rfl⟩
    have hnew : ¬ DrawnBefore env "dlq_" w.draws ("dlq_" ++ env.uuid4.hex12 w.draws) := undrawn
    simp only [persist_dlq_item, update, meets_bind, meets_write, then_ok, meets_pure]
    refine ⟨⟨.same rfl, .seeded _ ⟨_, Nat.lt_succ_self _, rfl⟩ ?_ rfl, .same rfl, Nat.le_refl _,
      .inl rfl⟩, _, rfl, rfl, rfl, Table.get?_put_self _ _, fun p hp => ?_, Nat.le_succ _⟩
    · by_contra hne
      obtain ⟨item, hitem⟩ := Option.ne_none_iff_exists'.1 hne
      exact hnew (hn.dlq _ item hitem)
    · cases p <;> first | rfl | exact absurd List.mem_cons_self hp
  · rintro item t t' ⟨_, ⟨⟩, hjob, htenant, hitem, hf⟩ hsave
    have hsame : t'.store.dlq_items = t.store.dlq_items := hsave.same .dlq (by simp)
    exact ⟨_, rfl, hjob, htenant, hsame ▸ hitem, hf.trans (hsave.mono (by simp))⟩

/-- The job may move to `dlq_recorded`, before which only the job itself
has changed. -/
def DlqGuard (guard : World → Job → Prop) (w : World) (job : Job) : Prop :=
  ∀ t job', Frame [.jobs] w t → SameJob job job' → job'.status = .dlq_recorded → guard t job'

/-- The two dead letter statuses, the item, and `failed`. -/
theorem dead_letter.spec {w : World} {job : Job} {tenant_id : String} (error_code : String)
    (hn : Named env w) (hv : Visible w job (some tenant_id)) (hrunning : job.status = .running)
    (hguard : DlqGuard guard w job) :
    Meets (Step env guard) (dead_letter env job tenant_id error_code) w (fun r w' =>
      ∃ item job', r = .ok (item, job') ∧ Became [.jobs, .dlq] w w' job job' ∧
        job'.status = .failed) := by
  unfold dead_letter
  have hedge₁ : JobStatus.dlq_pending ∈ ALLOWED_TRANSITIONS job.status := by
    rw [hrunning]
    decide
  refine (meets_named hn (transition_job_status.became hv hedge₁
    (hfree _ _ (by simp [moved]) (by simp [moved])))).bind ?_ (by rintro e t ⟨⟨he, -⟩, -⟩; cases he)
  rintro _ t₁ ⟨⟨⟨⟩, hb₁⟩, hn₁⟩
  have hguarded := hguard t₁ _ hb₁.frame (hb₁.same.trans (moved_same _ .dlq_recorded)) rfl
  refine (meets_named hn₁ (transition_job_status.became (hb₁.visible hv)
    (by simp [moved, ALLOWED_TRANSITIONS]) hguarded)).bind ?_
    (by rintro e t ⟨⟨he, -⟩, -⟩; cases he)
  rintro _ t₂ ⟨⟨⟨⟩, hb₂⟩, hn₂⟩
  refine (seed_dlq_item.spec hn₂ _ _ _ _).bind ?_ (by rintro e t ⟨item, he, -⟩; cases he)
  rintro item t₃ ⟨_, ⟨⟩, -, -, -, hf₃⟩
  have hb₃ : Became [.jobs, .dlq] w t₃ job _ :=
    ⟨(hb₁.trans hb₂).same, hb₂.stored.frame hf₃ (by simp),
      ((hb₁.trans hb₂).frame.mono (by simp)).trans (hf₃.mono (by simp))⟩
  refine (transition_job_status.became (hb₃.visible hv) (by simp [moved, ALLOWED_TRANSITIONS])
    (hfree _ _ (by simp [moved]) (by simp [moved]))).bind ?_ (by rintro e t ⟨he, -⟩; cases he)
  rintro _ t₄ ⟨⟨⟩, hb₄⟩
  refine past_calm (touches_utcnow env) (returns_utcnow env) fun occurred_at t₅ hf₅ => ?_
  have hb₅ := hb₄.later hf₅ (by simp) (by simp)
  refine past_note hb₅.stored ⟨rfl, rfl, rfl, rfl, rfl, rfl⟩ rfl fun t₆ hput => ?_
  have hb₆ := hb₅.trans (.of_put hput ⟨rfl, rfl, rfl, rfl, rfl, rfl⟩)
  rw [meets_pure]
  exact ⟨item, _, rfl, ⟨hb₃.same.trans hb₆.same, hb₆.stored,
    hb₃.frame.trans (hb₆.frame.mono (by simp))⟩, rfl⟩

/-- A failed run leaves its job `failed`, also when the document of a parse
job makes it raise at the end. -/
theorem fail_job.spec {w : World} {job : Job} {tenant_id : String}
    (force_error_code : Option String) (hn : Named env w) (hv : Visible w job (some tenant_id))
    (hrunning : job.status = .running)
    (hguard : DlqGuard guard w job) :
    Meets (Step env guard) (fail_job env job tenant_id force_error_code) w (fun r w' =>
      (∀ result, r = .ok result → result.final_status = .failed) ∧
      ∃ job', Became [.jobs, .dlq, .documents, .chunks] w w' job job' ∧
        job'.status = .failed) := by
  unfold fail_job
  refine (dead_letter.spec hfree _ hn hv hrunning hguard).bind ?_
    (by rintro e t ⟨item, job', he, -⟩; cases he)
  rintro ⟨item, job₁⟩ t₁ ⟨_, _, ⟨⟩, hb₁, hfailed⟩
  have hb₁ : Became [.jobs, .dlq, .documents, .chunks] w t₁ job job₁ :=
    ⟨hb₁.same, hb₁.stored, hb₁.frame.mono (by simp)⟩
  refine past (touches_fail_parse env (K := [.documents, .chunks]) (by simp) (by simp) _ _ _)
    (by decide) (fun _ t₂ hf₂ => ?_) (fun e t₂ hf₂ => ?_)
  · refine past_calm (touches_checkpoint env _ _ _ _ _ _) (returns_checkpoint env _ _ _ _ _ _)
      fun _ t₃ hf₃ => ?_
    rw [meets_pure]
    refine ⟨?_, job₁, (hb₁.later hf₂ (by simp) (by simp)).later hf₃ (by simp) (by simp), hfailed⟩
    rintro _ ⟨⟩
    rfl
  · refine ⟨?_, job₁, hb₁.later hf₂ (by simp) (by simp), hfailed⟩
    rintro _ ⟨⟩

/-! ## The workflows -/

/-- The parts that a workflow can change. -/
def workflowParts : List Part := [.jobs, .reports, .tokens, .interrupted]

/-- How a workflow ends: its job went to the status that it returned, or
the workflow raised and the job is as it was. -/
def Ended (w w' : World) (job : Job) : Except PyErr RunResult → Prop
  | .ok result => ∃ job', Became workflowParts w w' job job' ∧ job'.status = result.final_status ∧
      (result.final_status = .succeeded ∨ result.final_status = .needs_manual_decision)
  | .error _ => Stored w' job ∧ Frame workflowParts w w'

omit hfree in
theorem Ended.from {K : List Part} {w w' w'' : World} {job : Job} {r : Except PyErr RunResult}
    (hf : Frame K w w') (hK : K ⊆ workflowParts) (h : Ended w' w'' job r) : Ended w w'' job r := by
  cases r with
  | error e => exact ⟨h.1, (hf.mono hK).trans h.2⟩
  | ok result =>
    obtain ⟨job', hb, hstatus, hends⟩ := h
    exact ⟨job', ⟨hb.same, hb.stored, (hf.mono hK).trans hb.frame⟩, hstatus, hends⟩

omit hfree in
theorem Ended.later {w w' w'' : World} {job : Job} {result : RunResult}
    (h : Ended w w' job (.ok result)) (hf : Frame [] w' w'') : Ended w w'' job (.ok result) := by
  obtain ⟨job', hb, hstatus, hends⟩ := h
  exact ⟨job', hb.later hf (by simp) (by simp), hstatus, hends⟩

/-- The move out of `running` that ends a workflow. -/
theorem finish.spec {w : World} {job : Job} {status : JobStatus} {tenant_id : String}
    (thread_id : String) (evaluation_id : Option String) (hv : Visible w job (some tenant_id))
    (hrunning : job.status = .running)
    (hstatus : status = .succeeded ∨ status = .needs_manual_decision) :
    Meets (Step env guard) (finish env job status tenant_id thread_id evaluation_id) w
      (fun r w' => (∃ result, r = .ok result ∧ result.final_status = status) ∧
          Ended w w' job r) := by
  have hedge : status ∈ ALLOWED_TRANSITIONS job.status := by
    rw [hrunning]
    rcases hstatus with rfl | rfl <;> decide
  have hguard : guard w (moved job status) :=
    by
    rcases hstatus with rfl | rfl <;> exact hfree _ _ (by simp [moved]) (by simp [moved])
  unfold finish
  refine (transition_job_status.became hv hedge hguard).bind ?_ (by rintro e t ⟨he, -⟩; cases he)
  rintro _ t ⟨⟨⟩, hb⟩
  rw [meets_pure]
  exact ⟨⟨_, rfl, rfl⟩, moved job status, ⟨hb.same, hb.stored, hb.frame.mono (by decide)⟩, rfl,
    hstatus⟩

/-- The parts that the graph can change. -/
def graphParts : List Part := [.reports, .tokens, .interrupted]

/-- The graph up to the end of `invoke`. -/
def graph_run (env : Env) (job : Job) (tenant_id : String) : Act Unit := do
  let thread_id ← thread_of env job "eval"
  invoke_evaluation env job tenant_id thread_id

/-- How the graph run of a job ends, by the outcome of `invoke`. -/
def GraphEnds (w w' : World) (job : Job) (r : Except PyErr RunResult) :
    Except PyErr Unit → Prop
  | .ok _ => (∃ result, r = .ok result ∧ result.final_status = .succeeded) ∧ Ended w w' job r
  | .error .graph_interrupt =>
      (∃ result, r = .ok result ∧ result.final_status = .needs_manual_decision) ∧ Ended w w' job r
  | .error e => r = .error e ∧ Stored w' job ∧ Frame graphParts w w'

theorem run_evaluation_graph.spec {w : World} {job : Job} {tenant_id : String}
    (hv : Visible w job (some tenant_id)) (hrunning : job.status = .running) :
    Meets (Step env guard) (run_evaluation_graph env job tenant_id) w
      (fun r w' => GraphEnds w w' job r ((graph_run env job tenant_id).result w)) := by
  have hthread : Keeps (Step env guard) (thread_of env job "eval") :=
    keeps_step_of_touches (touches_thread_of env job "eval")
  unfold run_evaluation_graph
  refine (hthread.ends w).bind ?_ ?_
  · rintro thread_id t ⟨hthread_id, rfl⟩
    have hf₁ := (touches_thread_of (K := []) env job "eval").frame w
    have hinvoke : Touches graphParts (invoke_evaluation env job tenant_id thread_id) :=
      touches_invoke env (by decide) (by decide) (by decide) _ _
    have hrun : (graph_run env job tenant_id).result w =
        (invoke_evaluation env job tenant_id thread_id).result
          ((thread_of env job "eval").final w) := result_bind hthread_id.symm
    rw [hrun, meets_catching, meets_bind]
    refine ((keeps_step_of_touches (hinvoke.widen (by decide))).ends _).post ?_
    rintro r t₂ ⟨hr, rfl⟩
    have hf₂ : Frame graphParts w _ := (hf₁.mono (by simp)).trans (hinvoke.frame _)
    have hv₂ := hv.frame hf₂ (by decide)
    have hends : ∀ status t₃ r', status = .succeeded ∨ status = .needs_manual_decision →
        (∃ result, r' = Except.ok result ∧ result.final_status = status) ∧
          Ended ((invoke_evaluation env job tenant_id thread_id).final
            ((thread_of env job "eval").final w)) t₃ job r' →
        (∃ result, r' = Except.ok result ∧ result.final_status = status) ∧ Ended w t₃ job r' :=
      fun _ _ _ _ h => ⟨h.1, h.2.from hf₂ (by decide)⟩
    rw [← hr]
    rcases r with (api | _ | raised) | _
    · simp only [then_error, handled_error, meets_raise]
      exact ⟨rfl, hv₂.stored, hf₂⟩
    · simp only [then_error, handled_error]
      exact (finish.spec hfree _ _ hv₂ hrunning (.inr rfl)).post fun r' t₃ h =>
        hends _ _ _ (.inr rfl) h
    · simp only [then_error, handled_error, meets_raise]
      exact ⟨rfl, hv₂.stored, hf₂⟩
    · rw [then_ok]
      refine (finish.spec hfree _ _ hv₂ hrunning (.inl rfl)).post ?_
      rintro r' t₃ ⟨⟨result, rfl, hresult⟩, hended⟩
      exact hends _ _ _ (.inl rfl) ⟨⟨result, rfl, hresult⟩, hended⟩
  · rintro e t ⟨he, -⟩
    obtain ⟨a, ha⟩ := returns_thread_of env job "eval" w
    rw [ha] at he
    cases he

/-- The status in which a workflow ends its job, or its error, when the
report is flagged or not and when the graph ends with `graph`. -/
def outcome_status (env : Env) (flagged : Bool) (graph : Except PyErr Unit) :
    Except PyErr JobStatus :=
  match env.workflow_runtime with
  | .error e => .error e
  | .ok .compat => if flagged then .ok .needs_manual_decision else .ok .succeeded
  | .ok .langgraph =>
    match graph with
    | .ok _ => .ok .succeeded
    | .error .graph_interrupt => .ok .needs_manual_decision
    | .error e => if env.true_stack_required then .error e else .ok .succeeded

def evaluation_outcome (env : Env) (job : Job) (tenant_id : String) (w : World) :
    Except PyErr JobStatus :=
  let t := (thread_of env job "eval").final w
  outcome_status env (is_flagged (stored_report t.store job.resource_id))
    ((graph_run env job tenant_id).result t)

/-- The workflow ended, and its status or its error is `outcome`. -/
def EndedWith (w w' : World) (job : Job) (outcome : Except PyErr JobStatus)
    (r : Except PyErr RunResult) : Prop :=
  Ended w w' job r ∧ r.map (fun result => result.final_status) = outcome

omit hfree in
theorem EndedWith.from {K : List Part} {w w' w'' : World} {job : Job}
    {outcome : Except PyErr JobStatus} {r : Except PyErr RunResult} (hf : Frame K w w')
    (hK : K ⊆ workflowParts) (h : EndedWith w' w'' job outcome r) :
    EndedWith w w'' job outcome r := ⟨h.1.from hf hK, h.2⟩

/-- The checkpoints of a path, then the end of the workflow. -/
theorem checkpoints_then_finish {w : World} {job : Job} {status : JobStatus} {tenant_id : String}
    (thread_id : String) (evaluation_id : Option String) (nodes : List (String × String × PyDict))
    (hv : Visible w job (some tenant_id)) (hrunning : job.status = .running)
    (hstatus : status = .succeeded ∨ status = .needs_manual_decision) :
    Meets (Step env guard)
      (append_checkpoints env thread_id job tenant_id nodes >>= fun _ =>
        finish env job status tenant_id thread_id evaluation_id) w
      (fun r w' => EndedWith w w' job (.ok status) r) := by
  refine past_calm (touches_checkpoints env _ _ _ _) (returns_checkpoints env _ _ _ _)
    fun _ t hf => ?_
  refine (finish.spec hfree thread_id evaluation_id (hv.frame hf (by simp)) hrunning
    hstatus).post ?_
  rintro r t' ⟨⟨result, rfl, hresult⟩, hended⟩
  refine EndedWith.from hf (by simp) ⟨hended, ?_⟩
  rw [← hresult]
  rfl

theorem run_evaluation_workflow.spec {w : World} {job : Job} {tenant_id : String}
    (hv : Visible w job (some tenant_id)) (hrunning : job.status = .running) :
    Meets (Step env guard) (run_evaluation_workflow env job tenant_id) w
      (fun r w' => EndedWith w w' job (evaluation_outcome env job tenant_id w) r) := by
  have hthread : Keeps (Step env guard) (thread_of env job "eval") :=
    keeps_step_of_touches (touches_thread_of env job "eval")
  have hf := (touches_thread_of (K := []) env job "eval").frame w
  unfold run_evaluation_workflow evaluation_outcome outcome_status
  refine (hthread.ends w).bind ?_ ?_
  · rintro thread_id t ⟨-, rfl⟩
    rw [meets_bind, meets_read, then_ok]
    generalize (thread_of env job "eval").final w = t at hf ⊢
    have hv₁ := hv.frame hf (by simp)
    refine Meets.post (Q := fun r w' => EndedWith t w' job _ r) ?_
      (fun r w' h => EndedWith.from hf (by simp) h)
    rw [meets_bind, meets_lift]
    rcases hmode : env.workflow_runtime with e | mode
    · exact ⟨⟨hv₁.stored, Frame.refl t⟩, rfl⟩
    · cases mode with
      | compat =>
        by_cases hflag : is_flagged (stored_report t.store job.resource_id) = true
        · simp only [then_ok, hflag, if_true]
          exact checkpoints_then_finish hfree _ _ _ hv₁ hrunning (.inr rfl)
        · simp only [then_ok, hflag, Bool.false_eq_true, if_false]
          exact checkpoints_then_finish hfree _ _ _ hv₁ hrunning (.inl rfl)
      | langgraph =>
        rw [then_ok, meets_catching]
        refine (run_evaluation_graph.spec hfree hv₁ hrunning).post fun r w' hgraph => ?_
        -- Any error but the interrupt goes to the compat path, unless that is forbidden.
        have hfallback : ∀ e, Stored w' job → Frame graphParts t w' →
            Meets (Step env guard)
              (if env.true_stack_required then raise e
                else run_compat env job tenant_id thread_id
                  (stored_report t.store job.resource_id)) w'
              (fun r w'' => EndedWith t w'' job
                (if env.true_stack_required then .error e else .ok .succeeded) r) := by
          intro e hstored hframe
          by_cases hstack : env.true_stack_required = true
          · simp only [hstack, if_true, meets_raise]
            exact ⟨⟨hstored, hframe.mono (by decide)⟩, rfl⟩
          · simp only [hstack, Bool.false_eq_true, if_false]
            exact (checkpoints_then_finish hfree _ _ _ ⟨hstored, hv.scope⟩ hrunning (.inl rfl)).post
              fun r w'' h => EndedWith.from hframe (by decide) h
        dsimp only
        generalize (graph_run env job tenant_id).result t = out at hgraph ⊢
        rcases out with (api | _ | raised) | _
        · obtain ⟨rfl, hstored, hframe⟩ := hgraph
          exact hfallback _ hstored hframe
        · obtain ⟨⟨result, rfl, hresult⟩, hended⟩ := hgraph
          exact ⟨hended, by simp [Except.map, hresult]⟩
        · obtain ⟨rfl, hstored, hframe⟩ := hgraph
          exact hfallback _ hstored hframe
        · obtain ⟨⟨result, rfl, hresult⟩, hended⟩ := hgraph
          exact ⟨hended, by simp [Except.map, hresult]⟩
  · rintro e t ⟨he, -⟩
    obtain ⟨a, ha⟩ := returns_thread_of env job "eval" w
    rw [ha] at he
    cases he

/-- The run of an evaluation job ends as its workflow does. -/
theorem run_evaluation_job.spec {w : World} {job : Job} {tenant_id : String}
    (hv : Visible w job (some tenant_id)) (hrunning : job.status = .running) :
    Meets (Step env guard) (run_evaluation_job env job tenant_id) w
      (fun r w' => EndedWith w w' job (evaluation_outcome env job tenant_id w) r) := by
  unfold run_evaluation_job
  refine (run_evaluation_workflow.spec hfree hv hrunning).bind (fun result t h => ?_)
    (fun e t h => h)
  have hcheckpoint : Returns (evaluation_checkpoint env job tenant_id result) :=
    returns_ite (returns_checkpoint env _ _ _ _ _ _)
      (returns_ite (returns_checkpoint env _ _ _ _ _ _) (returns_pure _))
  refine past_calm (touches_evaluation_checkpoint env _ _ _) hcheckpoint fun _ t' hf => ?_
  rw [meets_pure]
  exact ⟨h.1.later hf, h.2⟩

/-- A resume job that returns has succeeded. -/
theorem run_resume_graph.spec {w : World} {job : Job} {tenant_id : String}
    (hv : Visible w job (some tenant_id)) (hrunning : job.status = .running) :
    Meets (Step env guard) (run_resume_graph env job tenant_id) w (fun r w' =>
      Ended w w' job r ∧ ∀ result, r = .ok result → result.final_status = .succeeded) := by
  unfold run_resume_graph
  refine past_calm (touches_thread_of env job "resume") (returns_thread_of env job "resume")
    fun thread_id t hf => ?_
  refine past (K := graphParts) (keeps_catching (touches_invoke_resume env (by decide) (by decide)
    (by decide) _) fun e => ?_) (by decide) (fun _ t' hf' => ?_) (fun e t' hf' => ?_)
  · cases e with
    | graph_interrupt => exact keeps_raise _
    | api e => exact keeps_raise _
    | raised class_name message => exact keeps_raise _
  · refine (finish.spec hfree _ _ ((hv.frame hf (by simp)).frame hf' (by decide)) hrunning
      (.inl rfl)).post ?_
    rintro r t'' ⟨⟨result, rfl, hresult⟩, hended⟩
    refine ⟨(hended.from hf' (by decide)).from hf (by simp), ?_⟩
    rintro _ ⟨⟩
    exact hresult
  · refine ⟨⟨(hv.stored.frame hf (by simp)).frame hf' (by decide),
      (hf.mono (by simp)).trans (hf'.mono (by decide))⟩, ?_⟩
    rintro _ ⟨⟩

theorem run_resume_workflow.spec {w : World} {job : Job} {tenant_id : String}
    (hv : Visible w job (some tenant_id)) (hrunning : job.status = .running) :
    Meets (Step env guard) (run_resume_workflow env job tenant_id) w (fun r w' =>
      Ended w w' job r ∧ ∀ result, r = .ok result → result.final_status = .succeeded) := by
  have hcompat : ∀ thread_id t, Stored t job →
      Meets (Step env guard) (run_resume_compat env job tenant_id thread_id) t (fun r w' =>
        Ended t w' job r ∧ ∀ result, r = .ok result → result.final_status = .succeeded) := by
    intro thread_id t hstored
    refine (checkpoints_then_finish hfree _ _ _ ⟨hstored, hv.scope⟩ hrunning (.inl rfl)).post ?_
    rintro r t' ⟨hended, hstatus⟩
    refine ⟨hended, ?_⟩
    rintro result rfl
    exact Except.ok.inj hstatus
  unfold run_resume_workflow
  refine past_calm (touches_thread_of env job "resume") (returns_thread_of env job "resume")
    fun thread_id t hf => ?_
  have hv₁ := hv.frame hf (by simp)
  refine Meets.post (Q := fun r w' => Ended t w' job r ∧ ∀ result, r = .ok result →
    result.final_status = .succeeded) ?_ (fun r w' h => ⟨h.1.from hf (by simp), h.2⟩)
  rw [meets_bind, meets_lift]
  rcases env.workflow_runtime with e | mode
  · refine ⟨⟨hv₁.stored, Frame.refl t⟩, ?_⟩
    rintro _ ⟨⟩
  · cases mode with
    | compat => exact hcompat thread_id t hv₁.stored
    | langgraph =>
      rw [then_ok]
      refine (run_resume_graph.spec hfree hv₁ hrunning).catching (fun a t' h => h) fun e t' h => ?_
      rw [meets_ite]
      refine ⟨fun _ => ?_, fun _ => ?_⟩
      · rw [meets_raise]
        exact h
      · exact (hcompat thread_id t' h.1.1).post fun r w' hr => ⟨hr.1.from h.1.2 (by simp), hr.2⟩

theorem run_resume_job.spec {w : World} {job : Job} {tenant_id : String}
    (hv : Visible w job (some tenant_id)) (hrunning : job.status = .running) :
    Meets (Step env guard) (run_resume_job env job tenant_id) w (fun r w' =>
      Ended w w' job r ∧ ∀ result, r = .ok result → result.final_status = .succeeded) := by
  unfold run_resume_job
  refine (run_resume_workflow.spec hfree hv hrunning).bind (fun result t h => ?_) (fun e t h => ?_)
  · refine past_calm (touches_checkpoint env _ _ _ _ _ _) (returns_checkpoint env _ _ _ _ _ _)
      fun _ t' hf => ?_
    rw [meets_pure]
    exact ⟨h.1.later hf, h.2⟩
  · refine ⟨h.1, ?_⟩
    rintro _ ⟨⟩

/-! ## The success -/

theorem move_to_succeeded.spec {w : World} {job : Job} {tenant_id : String}
    (hv : Visible w job (some tenant_id)) (hrunning : job.status = .running) :
    Meets (Step env guard) (move_to_succeeded env job tenant_id) w (fun r w' =>
      ∃ job', r = .ok job' ∧ Became [.jobs] w w' job job' ∧ job'.status = .succeeded) := by
  have hedge : JobStatus.succeeded ∈ ALLOWED_TRANSITIONS job.status := by
    rw [hrunning]
    decide
  unfold move_to_succeeded
  refine (transition_job_status.became hv hedge
    (hfree _ _ (by simp [moved]) (by simp [moved]))).bind ?_ (by rintro e t ⟨he, -⟩; cases he)
  rintro _ t₁ ⟨⟨⟩, hb₁⟩
  have hnote : Meets (Step env guard)
      (persist_job { moved job .succeeded with next_retry_at := none }) t₁ _ :=
    persist_job.note hb₁.stored ⟨rfl, rfl, rfl, rfl, rfl, rfl⟩ rfl
  refine hnote.post ?_
  rintro r t₂ ⟨hr, hput⟩
  exact ⟨_, hr, hb₁.trans (.of_put hput ⟨rfl, rfl, rfl, rfl, rfl, rfl⟩), rfl⟩

/-- A job that succeeds has moved before it is parsed and indexed, so it is
left `succeeded` also when it raises. -/
theorem succeed_job.spec {w : World} {job : Job} {tenant_id : String}
    (hv : Visible w job (some tenant_id)) (hrunning : job.status = .running) :
    Meets (Step env guard) (succeed_job env job tenant_id) w (fun r w' =>
      (∀ result, r = .ok result → result.final_status = .succeeded) ∧
      ∃ job', Became [.jobs, .documents, .chunks, .index] w w' job job' ∧
        job'.status = .succeeded) := by
  unfold succeed_job
  refine (move_to_succeeded.spec hfree hv hrunning).bind ?_ (by rintro e t ⟨job', he, -⟩; cases he)
  rintro job₂ t₂ ⟨_, ⟨⟩, hb₂, hsucceeded⟩
  have hb₂ : Became [.jobs, .documents, .chunks, .index] w t₂ job job₂ :=
    ⟨hb₂.same, hb₂.stored, hb₂.frame.mono (by simp)⟩
  refine past (touches_succeed_parse env (K := [.documents, .chunks, .index]) (by simp) (by simp)
    (by simp) _ _) (by decide) (fun _ t₃ hf₃ => ?_) (fun e t₃ hf₃ => ?_)
  · refine past_calm (touches_checkpoint env _ _ _ _ _ _) (returns_checkpoint env _ _ _ _ _ _)
      fun _ t₄ hf₄ => ?_
    rw [meets_pure]
    refine ⟨?_, _, (hb₂.later hf₃ (by simp) (by simp)).later hf₄ (by simp) (by simp), hsucceeded⟩
    rintro _ ⟨⟩
    rfl
  · refine ⟨?_, _, hb₂.later hf₃ (by simp) (by simp), hsucceeded⟩
    rintro _ ⟨⟩

/-! ## The run -/

/-- The parts that a run can change. -/
def runParts : List Part :=
  [.jobs, .dlq, .documents, .chunks, .index, .reports, .tokens, .interrupted]

/-- The flags send the run into the failure branch. -/
def Fails (env : Env) (flags : RunFlags) (retry_count : Nat) : Prop :=
  flags.force_fail = true ∨
    flags.transient_fail = true ∧ ¬ retry_count < env.worker_max_retries

/-- The status that a started run leaves when it raises. -/
def raised_status (flags : RunFlags) (job_type : JobType) : JobStatus :=
  if flags.force_fail || flags.transient_fail then .failed
  else
    match job_type with
    | .evaluation | .resume => .running
    | _ => .succeeded

/-- The statuses in which a run that returns leaves its job. -/
def final_statuses : List JobStatus :=
  [.succeeded, .needs_manual_decision, .retrying, .failed]

/-- How a run that was started ends. -/
def RunEnds (flags : RunFlags) (w w' : World) (job : Job) : Except PyErr RunResult → Prop
  | .ok result => ∃ job', Became runParts w w' job job' ∧ job'.status = result.final_status ∧
      result.final_status ∈ final_statuses
  | .error _ => ∃ job', Became runParts w w' job job' ∧
      job'.status = raised_status flags job.job_type

omit hfree in
theorem Became.widen {K K' : List Part} {w w' : World} {job job' : Job}
    (h : Became K w w' job job') (hK : K ⊆ K') : Became K' w w' job job' :=
  ⟨h.same, h.stored, h.frame.mono hK⟩

omit hfree in
theorem Became.noted {K : List Part} {w t t' : World} {job job₁ job₂ : Job}
    (h : Became K w t job job₁) (hput : Put t t' job₂) (hsame : SameJob job₁ job₂)
    (hK : .jobs ∈ K) : Became K w t' job job₂ :=
  h.trans ((Became.of_put hput hsame).widen (by simpa using hK))

omit hfree in
theorem Ended.run {flags : RunFlags} {w w' : World} {job : Job} {r : Except PyErr RunResult}
    (h : Ended w w' job r) (hrunning : job.status = .running)
    (hraised : raised_status flags job.job_type = .running) :
    RunEnds flags w w' job r ∧ ∀ result, r = .ok result →
      result.final_status = .succeeded ∨ result.final_status = .needs_manual_decision := by
  cases r with
  | error e =>
    refine ⟨⟨job, ⟨SameJob.refl job, h.1, h.2.mono (by decide)⟩, hrunning.trans hraised.symm⟩, ?_⟩
    rintro _ ⟨⟩
  | ok result =>
    obtain ⟨job', hb, hstatus, hends⟩ := h
    refine ⟨⟨job', hb.widen (by decide), hstatus, ?_⟩, ?_⟩
    · rcases hends with heq | heq <;> simp [heq, final_statuses]
    · rintro _ ⟨⟩
      exact hends

theorem fail_job.ends {flags : RunFlags} {w : World} {job : Job} {tenant_id : String}
    (force_error_code : Option String) (hflags : (flags.force_fail || flags.transient_fail) = true)
    (hn : Named env w) (hv : Visible w job (some tenant_id)) (hrunning : job.status = .running)
    (hguard : DlqGuard guard w job) :
    Meets (Step env guard) (fail_job env job tenant_id force_error_code) w
      (fun r w' => RunEnds flags w w' job r) := by
  refine (fail_job.spec hfree _ hn hv hrunning hguard).post ?_
  rintro (e | result) w' ⟨hfinal, job', hb, hfailed⟩
  · exact ⟨job', hb.widen (by decide), by simp [raised_status, hflags, hfailed]⟩
  · have := hfinal result rfl
    exact ⟨job', hb.widen (by decide), hfailed.trans this.symm, by simp [this, final_statuses]⟩

/-- A run without flags leaves its job at its end, or to a person. -/
theorem run_by_type.spec {flags : RunFlags} {w : World} {job : Job} {tenant_id : String}
    (hflags : (flags.force_fail || flags.transient_fail) = false)
    (hv : Visible w job (some tenant_id)) (hrunning : job.status = .running) :
    Meets (Step env guard) (run_by_type env job tenant_id) w (fun r w' =>
      RunEnds flags w w' job r ∧ ∀ result, r = .ok result →
        result.final_status = .succeeded ∨ result.final_status = .needs_manual_decision) := by
  unfold run_by_type
  split
  · rename_i htype
    exact (run_evaluation_job.spec hfree hv hrunning).post
      fun r w' h => h.1.run hrunning (by simp [raised_status, hflags, htype])
  · rename_i htype
    exact (run_resume_job.spec hfree hv hrunning).post
      fun r w' h => h.1.run hrunning (by simp [raised_status, hflags, htype])
  · rename_i hno_evaluation hno_resume
    have hraised : raised_status flags job.job_type = .succeeded := by
      unfold raised_status
      rw [hflags]
      split
      · contradiction
      · split
        · exact absurd ‹_› hno_evaluation
        · exact absurd ‹_› hno_resume
        · rfl
    refine (succeed_job.spec hfree hv hrunning).post ?_
    rintro r w' ⟨hfinal, job', hb, hsucceeded⟩
    refine ⟨?_, fun result hr => .inl (hfinal result hr)⟩
    cases r with
    | error e => exact ⟨job', hb.widen (by decide), hsucceeded.trans hraised.symm⟩
    | ok result =>
      have hstatus := hfinal result rfl
      exact ⟨job', hb.widen (by decide), hsucceeded.trans hstatus.symm,
        by simp [hstatus, final_statuses]⟩

/-- A run past its start. Only the failure branch needs the guard. -/
theorem run_started.spec {flags : RunFlags} {w : World} {job : Job} {tenant_id : String}
    (hn : Named env w) (hv : Visible w job (some tenant_id)) (hrunning : job.status = .running)
    (hguard : Fails env flags job.retry_count → DlqGuard guard w job) :
    Meets (Step env guard) (run_started env job tenant_id flags) w
      (fun r w' => RunEnds flags w w' job r) := by
  unfold run_started
  rw [meets_ite]
  refine ⟨fun hforce => ?_, fun hforce => ?_⟩
  · exact fail_job.ends hfree _ (by simp [hforce]) hn hv hrunning (hguard (.inl hforce))
  · rw [meets_ite]
    refine ⟨fun htransient => ?_, fun htransient => ?_⟩
    · rw [meets_ite]
      refine ⟨fun _ => ?_, fun hspent => ?_⟩
      · refine (retry_job.spec hfree _ hv hrunning).post ?_
        rintro _ w' ⟨result, job', rfl, hretrying, hb, hstatus⟩
        exact ⟨job', hb.widen (by decide), hstatus.trans hretrying.symm,
          by simp [hretrying, final_statuses]⟩
      · exact fail_job.ends hfree _ (by simp [htransient]) hn hv hrunning
          (hguard (.inr ⟨htransient, hspent⟩))
    · exact (run_by_type.spec hfree (by simp [hforce, htransient]) hv hrunning).post
        fun r w' h => h.1

/-- A run that did not start: it raised, and no status has changed. -/
def NotStarted (w w' : World) (job_id : String) (r : Except PyErr RunResult) : Prop :=
  (∃ e, r = .error e) ∧ Frame [.jobs] w w' ∧
    ∀ job, job.job_id = job_id → Stored w job →
      ∃ job', Became [.jobs] w w' job job' ∧ job'.status = job.status

/-- The run as a whole. A job that the tenant may see, in a status from
which it can start, is run; any other call raises. -/
theorem run_job_once.spec {w : World} {job_id tenant_id : String} {flags : RunFlags}
    (hn : Named env w)
    (hguard : ∀ job, job.job_id = job_id → Visible w job (some tenant_id) →
      Startable job.status → Fails env flags job.retry_count → DlqGuard guard w job) :
    Meets (Step env guard) (run_job_once env job_id tenant_id flags) w (fun r w' =>
      (∃ job, job.job_id = job_id ∧ Visible w job (some tenant_id) ∧ Startable job.status ∧
        RunEnds flags w w' job r) ∨
      (∀ job, job.job_id = job_id → Visible w job (some tenant_id) → ¬ Startable job.status) ∧
        NotStarted w w' job_id r) := by
  unfold run_job_once
  refine meets_saving ((meets_named hn (begin_run.spec hfree w job_id tenant_id)).bind ?_ ?_) ?_
  · rintro job t ⟨⟨hf, found, hid, hv, hstart, hb, hrunning, hretry⟩, hn'⟩
    refine (run_started.spec hfree hn' (hb.visible hv) hrunning ?_).post ?_
    · intro hfails t' job' hf' hsame
      exact hguard found hid hv hstart (hretry ▸ hfails) t' job' (hf.trans hf')
        (hb.same.trans hsame)
    · rintro r t' hends
      refine .inl ⟨found, hid, hv, hstart, ?_⟩
      have hb' : Became runParts w t found job := hb.widen (by decide)
      cases r with
      | error e =>
        obtain ⟨job', hbecame, hstatus⟩ := hends
        exact ⟨job', hb'.trans hbecame, hb.same.job_type ▸ hstatus⟩
      | ok result =>
        obtain ⟨job', hbecame, hstatus⟩ := hends
        exact ⟨job', hb'.trans hbecame, hstatus⟩
  · rintro e t ⟨⟨hf, hno⟩, -⟩
    exact .inr ⟨fun job hid hv => (hno job hid hv.stored).2 hv, ⟨e, rfl⟩, hf,
      fun job hid hs => (hno job hid hs).1⟩
  · rintro result t t' (⟨job, hid, hv, hstart, job', hb, hstatus⟩ | ⟨-, ⟨e, he⟩, -⟩) hf
    · exact .inl ⟨job, hid, hv, hstart, job', hb.later hf (by simp) (by simp), hstatus⟩
    · cases he

end bid_evaluation.run_steps
