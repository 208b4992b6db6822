-- The laws of the dead letter queue. A job that reached `dlq_recorded` or
-- `failed` should have its item in every snapshot on disk. The failure
-- branch of a run saves `dlq_recorded` before it seeds the item, so this
-- holds only in runs where that item is already there.
import BidEvaluation.JobLaws

open dict_lib stepwise bid_evaluation.values bid_evaluation.core bid_evaluation.store_parse
  bid_evaluation.job_run bid_evaluation.operations bid_evaluation.frames bid_evaluation.job_steps
  bid_evaluation.run_steps bid_evaluation.op_steps bid_evaluation.job_laws

namespace bid_evaluation.dlq_laws

variable {env : Env} {w w' : World}

/-! ## Items and the jobs that need one -/

/-- The job was given up, and not by an operator. -/
def NeedsItem (job : Job) : Prop :=
  job.status = .dlq_recorded ∨ job.status = .failed ∧ job.error_code ≠ some "JOB_CANCELLED"

def HasItem (s : Store) (job : Job) : Prop :=
  ∃ item ∈ s.dlq_items.values, item.job_id = job.job_id ∧ item.tenant_id = job.tenant_id

/-- Each job that needs an item has one. -/
def Covered (s : Store) : Prop := ∀ job ∈ s.jobs.values, NeedsItem job → HasItem s job

instance (job : Job) : Decidable (NeedsItem job) := inferInstanceAs (Decidable (_ ∨ _ ∧ _))

instance (s : Store) (job : Job) : Decidable (HasItem s job) :=
  inferInstanceAs (Decidable (∃ item ∈ s.dlq_items.values, _ ∧ _))

instance (s : Store) : Decidable (Covered s) :=
  inferInstanceAs (Decidable (∀ job ∈ s.jobs.values, NeedsItem job → HasItem s job))

/-- The store in memory and the snapshot on disk are covered. -/
structure Sound (w : World) : Prop where
  memory : Covered w.store
  disk : ∀ s ∈ w.disk, Covered s

theorem sound_start : Sound World.start :=
  ⟨fun job hjob => by simp [World.start, Store.empty, Table.mem_values_iff] at hjob,
    fun s hs => by simp [World.start] at hs⟩

/-! ## One write -/

/-- The guard of a move to `dlq_recorded`: the item is there. -/
def itemFirst : World → Job → Prop := fun w job => job.status = .dlq_recorded → HasItem w.store job

theorem HasItem.same {s : Store} {job job' : Job} (h : HasItem s job) (hs : SameJob job job') :
    HasItem s job' := by
  obtain ⟨item, hitem, hjob, htenant⟩ := h
  exact ⟨item, hitem, hjob.trans hs.job_id.symm, htenant.trans hs.tenant_id.symm⟩

/-- No write takes the item of a job away. -/
theorem HasItem.step {job : Job} (h : HasItem w.store job) (hstep : DlqStep env w w') :
    HasItem w'.store job := by
  obtain ⟨item, hitem, hjob, htenant⟩ := h
  rw [Table.mem_values_iff] at hitem
  cases hstep with
  | same hsame =>
    refine ⟨item, ?_, hjob, htenant⟩
    rw [Table.mem_values_iff, hsame]
    exact hitem
  | seeded new hid hnone hitems =>
    refine ⟨item, ?_, hjob, htenant⟩
    rw [Table.mem_values_iff, hitems, Table.get?_put, if_neg, hitem]
    intro heq
    rw [heq, hnone] at hitem
    cases hitem
  | closed old new hold hid hold_job hold_tenant hitems =>
    by_cases heq : item.dlq_id = new.dlq_id
    · rw [heq, hid, hold] at hitem
      cases hitem
      refine ⟨new, ?_, hold_job.trans hjob, hold_tenant.trans htenant⟩
      rw [Table.mem_values_iff, hitems, Table.get?_put_self]
    · refine ⟨item, ?_, hjob, htenant⟩
      rw [Table.mem_values_iff, hitems, Table.get?_put, if_neg heq, hitem]

/-- A write of one job keeps the store covered when the job that was
written has its item, if it needs one. -/
theorem covered_put (env : Env) {job : Job} (hw : Covered w.store) (hdlq : DlqStep env w w')
    (hjobs : w'.store.jobs = w.store.jobs.put job)
    (hjob : NeedsItem job → HasItem w.store job) : Covered w'.store := by
  intro found hfound hneeds
  rw [Table.mem_values_iff, hjobs, Table.get?_put] at hfound
  split at hfound
  · cases hfound
    exact (hjob hneeds).step hdlq
  · exact (hw found ((Table.mem_values_iff _ _).2 hfound) hneeds).step hdlq

theorem needs_item_after_edge {job job' : Job}
    (hedge : job'.status ∈ ALLOWED_TRANSITIONS job.status)
    (hneeds : NeedsItem job') : job'.status = .dlq_recorded ∨ job.status = .dlq_recorded := by
  rcases hneeds with hrecorded | ⟨hfailed, -⟩
  · exact .inl hrecorded
  · rw [hfailed] at hedge
    cases hstatus : job.status <;> simp [hstatus, ALLOWED_TRANSITIONS] at hedge ⊢

theorem covered_step (hw : Covered w.store) (h : Step env itemFirst w w') : Covered w'.store := by
  have hstored : ∀ job, Stored w job → NeedsItem job → HasItem w.store job :=
    fun job hjob => hw job ((Table.mem_values_iff _ _).2 hjob)
  cases h.jobs with
  | same hjobs =>
    intro job hjob hneeds
    rw [hjobs] at hjob
    exact (hw job hjob hneeds).step h.dlq
  | created job hid hnone hqueued hguard hjobs =>
    refine covered_put env hw h.dlq hjobs (fun hneeds => ?_)
    rcases hneeds with hrecorded | ⟨hfailed, -⟩
    · exact hguard hrecorded
    · rw [hqueued] at hfailed
      cases hfailed
  | noted job job' hjob hsame hstatus hjobs =>
    refine covered_put env hw h.dlq hjobs (fun hneeds => (hstored job hjob ?_).same hsame)
    unfold NeedsItem at hneeds ⊢
    rwa [hstatus, hsame.error_code] at hneeds
  | moved job job' hjob hsame hedge hguard hjobs =>
    refine covered_put env hw h.dlq hjobs (fun hneeds => ?_)
    rcases needs_item_after_edge hedge hneeds with hrecorded | hrecorded
    · exact hguard hrecorded
    · exact (hstored job hjob (.inl hrecorded)).same hsame

theorem sound_step {op : Op} (hw : Sound w) (h : OpStep env itemFirst op w w') : Sound w' := by
  cases h with
  | step h =>
    have hmemory := covered_step hw.memory h
    refine ⟨hmemory, fun s hs => ?_⟩
    rcases h.disk with hdisk | ⟨hdisk, -⟩
    · exact hw.disk s (hdisk ▸ hs)
    · rw [hdisk] at hs
      cases hs
      exact hw.memory
  | cancelled job_id tenant_id hop h =>
    obtain ⟨job, -, hstored, -, -, rfl⟩ := h
    refine ⟨covered_put env hw.memory (.same rfl) rfl (fun hneeds => ?_), hw.disk⟩
    rcases hneeds with hrecorded | ⟨-, hcode⟩
    · cases hrecorded
    · exact absurd rfl hcode

/-! ## Runs -/

/-- The call finds an item for the job that it is about to give up: it is
no run that enters the failure branch of a job without an item, and no
transition of such a job to `dlq_recorded`. -/
def GivesUpWithItem (env : Env) (w : World) : Op → Prop
  | .run_job_once job_id tenant_id flags => ∀ job, job.job_id = job_id →
      Visible w job (some tenant_id) → Startable job.status →
        Fails env flags job.retry_count → HasItem w.store job
  | .transition_job_status job_id status tenant_id => status = .dlq_recorded →
      ∀ job, job.job_id = job_id → Visible w job tenant_id →
        status ∈ ALLOWED_TRANSITIONS job.status → HasItem w.store job
  | _ => True

theorem item_first_free : FreeMoves itemFirst := fun _ _ h _ hrecorded => absurd hrecorded h

theorem item_first_new : ∀ w job, job.status = .queued → itemFirst w job := by
  intro w job hqueued hrecorded
  rw [hqueued] at hrecorded
  cases hrecorded

theorem permits_with_item {op : Op} (h : GivesUpWithItem env w op) :
    Permits env itemFirst w op := by
  cases op with
  | run_job_once job_id tenant_id flags =>
    intro job hid hv hstart hfails t job' hf hsame _ _
    obtain ⟨item, hitem, hjob, htenant⟩ := (h job hid hv hstart hfails).same hsame
    have hitems : t.store.dlq_items = w.store.dlq_items := hf.same .dlq (by simp)
    exact ⟨item, hitems ▸ hitem, hjob, htenant⟩
  | transition_job_status job_id status tenant_id =>
    intro hrecorded job hid hv hedge _
    exact (h hrecorded job hid hv hedge).same (moved_same job status)
  | _ => trivial

theorem sound_steps {op : Op} (hn : Named env w) (hop : GivesUpWithItem env w op) :
    Steps (OpStep env itemFirst op) w ((op.act env).written w) :=
  steps_of_op item_first_new item_first_free hn op (permits_with_item hop)

theorem sound_reached (h : Reached env (GivesUpWithItem env) w) : Sound w := by
  have hboth : Named env w ∧ Sound w := by
    induction h with
    | start => exact ⟨named_start, sound_start⟩
    | step h op hop ih =>
      exact ⟨named_perform item_first_new item_first_free ih.1 op (permits_with_item hop),
        (sound_steps ih.1 hop).invariant_last (fun _ _ hstep hs => sound_step hs hstep) ih.2⟩
  exact hboth.2

/-! ## The laws -/

/-- In a run whose calls find an item for each job that they give up, every
state that is written has an item for each job that was given up, in memory
and on disk. -/
theorem given_up_jobs_have_an_item (env : Env) (w : World)
    (h : Reached env (GivesUpWithItem env) w) :
    Sound w ∧ ∀ op, GivesUpWithItem env w op → ∀ t ∈ (op.act env).written w, Sound t := by
  have hn : Named env w := named_reached h
  refine ⟨sound_reached h, fun op hop => ?_⟩
  exact (sound_steps hn hop).invariant (fun _ _ hstep hs => sound_step hs hstep) (sound_reached h)

/-- An uploaded document, and an item for its parse job. -/
def seeded : World :=
  after calm_env World.start [.upload bid_file false,
    .seed_dlq_item "job_a" "transient" "RAG_UPSTREAM_UNAVAILABLE" "tenant"]

/-- The run that gives the job up keeps the law. -/
theorem given_up_jobs_have_an_item_seeded :
    Sound seeded ∧
      ∀ t ∈ ((Op.run_job_once "job_a" "tenant" ⟨true, false, none⟩).act calm_env).written
      seeded, Sound t := by
  have hlaw := given_up_jobs_have_an_item calm_env seeded
    (.step (.step .start (.upload bid_file false) trivial)
      (.seed_dlq_item "job_a" "transient" "RAG_UPSTREAM_UNAVAILABLE" "tenant") trivial)
  refine ⟨hlaw.1, hlaw.2 (.run_job_once "job_a" "tenant" ⟨true, false, none⟩) ?_⟩
  intro job hid hv _ _
  unfold HasItem
  rw [hid, hv.scope "tenant" rfl]
  decide

/-- The run of an uploaded document that is told to fail saves a snapshot in
which the job is `dlq_recorded` and has no item. -/
theorem given_up_job_is_saved_without_item :
    ¬ ∀ t ∈ ((Op.run_job_once "job_a" "tenant" ⟨true, false, none⟩).act calm_env).written
      (after calm_env World.start [.upload bid_file false]), ∀ s ∈ t.disk, Covered s := by
  decide

end bid_evaluation.dlq_laws
