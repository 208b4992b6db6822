-- The laws of the announcements: a job that waits in the queue has an event
-- in the outbox, or no worker ever hears of it. All creators announce their
-- job but one: the requeue of a dead letter item.
import BidEvaluation.JobLaws

open dict_lib stepwise bid_evaluation.values bid_evaluation.core bid_evaluation.store_ops
  bid_evaluation.store_workflow bid_evaluation.store_admin bid_evaluation.store_parse
  bid_evaluation.store_eval bid_evaluation.job_run bid_evaluation.operations
  bid_evaluation.frames bid_evaluation.job_steps bid_evaluation.run_steps
  bid_evaluation.op_steps bid_evaluation.job_laws

namespace bid_evaluation.announce_laws

variable {env : Env} {w w' : World}

/-! ## Events stay -/

theorem HasEvent.same {job job' : Job} (h : HasEvent w job) (hs : SameJob job job') :
    HasEvent w job' := by
  obtain ⟨event, hevent, htype, haggregate, htenant⟩ := h
  exact ⟨event, hevent, htype, haggregate.trans hs.job_id.symm, htenant.trans hs.tenant_id.symm⟩

/-- No write takes an event away. -/
theorem HasEvent.step {guard : World → Job → Prop} {op : Op} {job : Job} (h : HasEvent w job)
    (hstep : OpStep env guard op w w') : HasEvent w' job := by
  obtain ⟨event, hevent, hrest⟩ := h
  refine ⟨event, ?_, hrest⟩
  rw [Table.mem_values_iff] at hevent ⊢
  cases hstep with
  | step hstep =>
    cases hstep.outbox with
    | same hsame => rw [hsame, hevent]
    | announced new hid hnone hevents =>
      rw [hevents, Table.get?_put, if_neg, hevent]
      intro heq
      rw [heq, hnone] at hevent
      cases hevent
  | cancelled job_id tenant_id hop hstep =>
    obtain ⟨_, -, -, -, -, rfl⟩ := hstep
    exact hevent

theorem events_stay (hn : Named env w) (op : Op) {job : Job} (h : HasEvent w job) :
    HasEvent (perform env w op) job :=
  (steps_of_op any_new any_free hn op (permits_any op)).invariant_last
    (fun _ _ hstep hevent => HasEvent.step hevent hstep) h

/-! ## What one operation leaves in the queue -/

/-- Each queued job was queued before, or it is announced. -/
def QueuedKept (w w' : World) : Prop :=
  ∀ id job', w'.store.jobs.get? id = some job' → job'.status = .queued →
    (∃ job, w.store.jobs.get? id = some job ∧ job.status = .queued ∧ SameJob job job') ∨
      HasEvent w' job'

theorem queued_kept_of_before (h : QueuedBefore w w') : QueuedKept w w' :=
  fun id job' hjob hqueued => .inl (h id job' hjob hqueued)

theorem queued_kept_of_announces (h : Announces w w') : QueuedKept w w' := by
  intro id job' hjob hqueued
  rcases h id job' hjob with hold | hevent
  · exact .inl ⟨job', hold, hqueued, SameJob.refl job'⟩
  · exact .inr hevent

theorem queued_kept_of_frame {K : List Part} (hf : Frame K w w') (hK : .jobs ∉ K) :
    QueuedKept w w' := by
  have hsame : w'.store.jobs = w.store.jobs := hf.same .jobs hK
  exact queued_kept_of_announces (.of_same hsame)

/-- A quiet program ends where the program ends. -/
theorem final_quiet (m : Act α) (w : World) : (quiet m).final w = m.final w :=
  (((keeps_true m).ends w).bind (fun _ _ h => meets_pure.2 h.2) (fun _ _ h => h.2) :
    Meets _ (quiet m) w (fun _ w' => w' = m.final w)).2

theorem queued_kept_quiet {m : Act α} (h : QueuedKept w (m.final w)) :
    QueuedKept w ((quiet m).final w) := by
  rw [final_quiet]
  exact h

theorem result_quiet {m : Act α} {w : World} (h : (quiet m).result w = .ok ()) :
    ∃ a, m.result w = .ok a := by
  rcases hm : m.result w with e | a
  · have herror : Meets (fun _ _ => True) (quiet m) w (fun r _ => r = .error e) :=
      ((keeps_true m).ends w).bind (fun a _ ha => by rw [hm] at ha; cases ha.1)
        (fun e' _ he => by rw [hm] at he; cases he.1; rfl)
    rw [herror.2] at h
    cases h
  · exact ⟨a, rfl⟩

/-- A creator that returned keeps what its spec says of its return. -/
theorem of_return {m : Act α} {w : World} {R : World → World → Prop} {Q : α → World → Prop}
    {P : World → Prop} (h : Meets R m w (OnReturn Q)) (hr : (quiet m).result w = .ok ())
    (hQ : ∀ a w', Q a w' → P w') : P ((quiet m).final w) := by
  obtain ⟨a, ha⟩ := result_quiet hr
  have hpost := h.2
  rw [ha] at hpost
  rw [final_quiet]
  exact hQ a _ hpost

/-- The operations that make and announce a job when they return. -/
def creates : Op → Bool
  | .upload .. | .create_parse_job .. | .create_evaluation_job .. | .create_resume_job ..
  | .resume .. | .execute_rollback .. => true
  | _ => false

/-- A creator returns. -/
def Complete (env : Env) (w : World) (op : Op) : Prop :=
  creates op = true → (op.act env).result w = .ok ()

/-- The operation is no requeue of an item that is open. -/
def NoRequeue (w : World) : Op → Prop
  | .requeue_dlq_item dlq_id _ tenant_id => ¬ HasOpenItem w dlq_id tenant_id
  | _ => True

theorem transition_queues (job_id : String) (status : JobStatus)
    (tenant_id : Option String) :
    QueuedKept w ((quiet (transition_job_status env job_id status tenant_id)).final w) := by
  have hspec : Meets (Step env noQueued) (transition_job_status env job_id status tenant_id) w _ :=
    transition_job_status.spec fun job _ _ hedge hqueued =>
      not_moved_to_queued ((show status = JobStatus.queued from hqueued) ▸ hedge)
  rw [final_quiet]
  exact queued_kept_of_before (queued_before_steps hspec.1)

theorem cancel_queues (job_id tenant_id : String) :
    QueuedKept w ((cancel_job env job_id tenant_id).final w) := by
  have hspec : Meets (fun a b => Step env anyJob a b ∨ CancelStep job_id a b) _ w _ :=
    cancel_job.spec w job_id tenant_id
  rcases hspec.2 with ⟨e, -, hw⟩ | ⟨job, -, hstored, hput⟩
  · rw [hw]
    exact queued_kept_of_before (QueuedBefore.refl w)
  · intro id found hfound hqueued
    rw [hput.jobs, Table.get?_put] at hfound
    split at hfound
    · cases hfound
      cases hqueued
    · exact .inl ⟨found, hfound, hqueued, SameJob.refl found⟩

/-- One complete operation leaves no queued job without an event, unless it
is the requeue of an open item. -/
theorem op_queues (hn : Named env w) (op : Op) (hcomplete : Complete env w op)
    (hrequeue : NoRequeue w op) : QueuedKept w (perform env w op) := by
  cases op with
  | upload payload has_file =>
    exact of_return (create_upload_job.spec any_new hn payload has_file) (hcomplete rfl)
      fun _ _ h => queued_kept_of_announces h
  | create_parse_job document_id trace_id tenant_id =>
    exact of_return (create_parse_job.spec any_new hn _ _ _) (hcomplete rfl)
      fun _ _ h => queued_kept_of_announces h.announces
  | create_evaluation_job payload =>
    exact of_return (create_evaluation_job.spec any_new hn payload) (hcomplete rfl)
      fun _ _ h => queued_kept_of_announces h.announces
  | consume_resume_token evaluation_id resume_token tenant_id =>
    have hf := (touches_consume_token (K := [.tokens]) env (by simp) evaluation_id resume_token
      tenant_id).frame w
    exact queued_kept_quiet (queued_kept_of_frame hf (by simp))
  | create_resume_job evaluation_id payload =>
    exact of_return (create_resume_job.spec any_new hn evaluation_id payload) (hcomplete rfl)
      fun _ _ h => queued_kept_of_announces h.announces
  | resume evaluation_id resume_token payload =>
    exact of_return (execute_resume.spec any_new hn evaluation_id resume_token payload)
      (hcomplete rfl) fun _ _ h => queued_kept_of_announces h.announces
  | run_job_once job_id tenant_id flags =>
    exact queued_kept_quiet (queued_kept_of_before (run_job_once.queued hn _ _ _))
  | transition_job_status job_id new_status tenant_id => exact transition_queues _ _ _
  | cancel_job job_id tenant_id => exact cancel_queues _ _
  | seed_dlq_item job_id error_class error_code tenant_id =>
    have hf := (touches_seed_dlq_item (K := [.dlq]) env (by simp) job_id error_class error_code
      tenant_id).frame w
    exact queued_kept_quiet (queued_kept_of_frame hf (by simp))
  | requeue_dlq_item dlq_id trace_id tenant_id =>
    have hspec : Meets (Step env anyJob) _ w _ :=
      requeue_dlq_item.spec any_new hn dlq_id trace_id tenant_id
    have hw := hspec.2 hrequeue
    refine queued_kept_quiet ?_
    rw [hw]
    exact queued_kept_of_before (QueuedBefore.refl w)
  | discard_dlq_item dlq_id reason reviewer_id reviewer_id_2 tenant_id trace_id =>
    have hspec : Meets (Step env anyJob) _ w _ :=
      discard_dlq_item.spec dlq_id reason reviewer_id reviewer_id_2 tenant_id trace_id
    exact queued_kept_of_frame hspec.2 (by simp)
  | execute_rollback release_id tenant_id trace_id trigger_gate =>
    have hspec : Meets (Step env anyJob) _ w _ :=
      execute_rollback.spec any_new any_free hn release_id tenant_id trace_id trigger_gate
    have hok := hspec.2
    have hreturn := hcomplete rfl
    simp only [Op.act] at hreturn
    rw [hreturn] at hok
    exact queued_kept_of_before hok

/-! ## The laws -/

/-- Each queued job has its event. -/
def Announced (w : World) : Prop :=
  ∀ job ∈ w.store.jobs.values, job.status = .queued → HasEvent w job

instance (w : World) : Decidable (Announced w) :=
  inferInstanceAs (Decidable (∀ job ∈ w.store.jobs.values, job.status = .queued → HasEvent w job))

theorem announced_op (hn : Named env w) (op : Op) (hcomplete : Complete env w op)
    (hrequeue : NoRequeue w op) (hw : Announced w) : Announced (perform env w op) := by
  intro job hjob hqueued
  rw [Table.mem_values_iff] at hjob
  rcases op_queues hn op hcomplete hrequeue _ job hjob hqueued with ⟨old, hold, hq, hsame⟩ | hevent
  · have hstored : old ∈ w.store.jobs.values := by
      rw [Table.mem_values_iff, w.store.jobs.key_of_get? hold]
      exact hold
    exact events_stay hn op (HasEvent.same (hw old hstored hq) hsame)
  · exact hevent

/-- After any complete operations with no requeue of an open item, each
queued job is announced. -/
theorem queued_jobs_are_announced (env : Env) (w : World)
    (h : Reached env (fun w op => Complete env w op ∧ NoRequeue w op) w) : Announced w := by
  induction h with
  | start =>
    intro job hjob
    simp [World.start, Store.empty, Table.mem_values_iff] at hjob
  | step h op hop ih => exact announced_op (named_reached h) op hop.1 hop.2 ih

/-- An uploaded document and a run of its job that fails. -/
theorem queued_jobs_are_announced_after_failure :
    Announced (after calm_env World.start [.upload bid_file false,
      .run_job_once "job_a" "tenant" ⟨true, false, none⟩, .upload bid_file false]) := by
  refine queued_jobs_are_announced calm_env _
    (.step (.step (.step .start (.upload bid_file false) ⟨fun _ => ?_, trivial⟩)
      (.run_job_once "job_a" "tenant" ⟨true, false, none⟩) ⟨fun _ => ?_, trivial⟩)
      (.upload bid_file false) ⟨fun _ => ?_, trivial⟩) <;> decide

/-- A requeue of the item of that job makes a job with no event. -/
theorem requeued_job_is_not_announced :
    ¬ Announced (after calm_env World.start [.upload bid_file false,
      .run_job_once "job_a" "tenant" ⟨true, false, none⟩,
      .requeue_dlq_item "dlq_aaaaaaaaa" "trace" "tenant"]) := by
  decide

end bid_evaluation.announce_laws
