-- What one write does to the jobs, the dead letter items and the outbox,
-- and what one run of a job does in the end. All laws about jobs follow
-- from the lemmas here.
import BidEvaluation.Frames

open dict_lib stepwise bid_evaluation.values bid_evaluation.core bid_evaluation.store_ops
  bid_evaluation.store_workflow bid_evaluation.store_admin bid_evaluation.store_parse
  bid_evaluation.langgraph_runtime bid_evaluation.store_eval bid_evaluation.job_run
  bid_evaluation.frames

namespace bid_evaluation.job_steps

/-! ## One write -/

/-- A name that was drawn before. -/
def DrawnBefore (env : Env) (kind : String) (draws : Nat) (name : String) : Prop :=
  ∃ n < draws, name = kind ++ env.uuid4.hex12 n

theorem DrawnBefore.mono {env : Env} {kind name : String} {m n : Nat}
    (h : DrawnBefore env kind m name) (hmn : m ≤ n) : DrawnBefore env kind n name := by
  obtain ⟨k, hk, hname⟩ := h
  exact ⟨k, Nat.lt_of_lt_of_le hk hmn, hname⟩

/-- What stays of a job for all its life. -/
structure SameJob (job job' : Job) : Prop where
  job_id : job'.job_id = job.job_id
  tenant_id : job'.tenant_id = job.tenant_id
  job_type : job'.job_type = job.job_type
  resource_id : job'.resource_id = job.resource_id
  payload : job'.payload = job.payload
  error_code : job'.error_code = job.error_code

theorem SameJob.refl (job : Job) : SameJob job job := ⟨rfl, rfl, rfl, rfl, rfl, rfl⟩

theorem SameJob.trans {a b c : Job} (h : SameJob a b) (h' : SameJob b c) : SameJob a c :=
  ⟨h'.1.trans h.1, h'.2.trans h.2, h'.3.trans h.3, h'.4.trans h.4, h'.5.trans h.5,
    h'.6.trans h.6⟩

/-- One write to the jobs. `guard` is what must hold when a job is made and
when it moves. -/
inductive JobStep (env : Env) (guard : World → Job → Prop) (w w' : World) : Prop where
  | same (h : w'.store.jobs = w.store.jobs)
  | created (job : Job) (hid : DrawnBefore env "job_" w.draws job.job_id)
      (hnew : w.store.jobs.get? job.job_id = none) (hqueued : job.status = .queued)
      (hguard : guard w job) (hjobs : w'.store.jobs = w.store.jobs.put job)
  | noted (job job' : Job) (hjob : w.store.jobs.get? job.job_id = some job)
      (hsame : SameJob job job') (hstatus : job'.status = job.status)
      (hjobs : w'.store.jobs = w.store.jobs.put job')
  | moved (job job' : Job) (hjob : w.store.jobs.get? job.job_id = some job)
      (hsame : SameJob job job') (hedge : job'.status ∈ ALLOWED_TRANSITIONS job.status)
      (hguard : guard w job') (hjobs : w'.store.jobs = w.store.jobs.put job')

/-- One write to the dead letter items. None is ever removed. -/
inductive DlqStep (env : Env) (w w' : World) : Prop where
  | same (h : w'.store.dlq_items = w.store.dlq_items)
  | seeded (item : DlqItem) (hid : DrawnBefore env "dlq_" w.draws item.dlq_id)
      (hnew : w.store.dlq_items.get? item.dlq_id = none)
      (hitems : w'.store.dlq_items = w.store.dlq_items.put item)
  | closed (item item' : DlqItem) (hitem : w.store.dlq_items.get? item.dlq_id = some item)
      (hid : item'.dlq_id = item.dlq_id) (hjob : item'.job_id = item.job_id)
      (htenant : item'.tenant_id = item.tenant_id)
      (hitems : w'.store.dlq_items = w.store.dlq_items.put item')

/-- One write to the outbox. -/
inductive OutboxStep (env : Env) (w w' : World) : Prop where
  | same (h : w'.store.domain_events_outbox = w.store.domain_events_outbox)
  | announced (event : OutboxEvent) (hid : DrawnBefore env "evt_" w.draws event.event_id)
      (hnew : w.store.domain_events_outbox.get? event.event_id = none)
      (hevents : w'.store.domain_events_outbox = w.store.domain_events_outbox.put event)

structure Step (env : Env) (guard : World → Job → Prop) (w w' : World) : Prop where
  jobs : JobStep env guard w w'
  dlq : DlqStep env w w'
  outbox : OutboxStep env w w'
  draws : w.draws ≤ w'.draws
  disk : DiskStep w w'

variable {env : Env} {guard : World → Job → Prop}

/-- A write that leaves jobs, items and events alone. -/
theorem Step.of_only {K : List Part} {w w' : World} (h : Only K w w') (hj : .jobs ∉ K)
    (hd : .dlq ∉ K) (ho : .outbox ∉ K) : Step env guard w w' :=
  ⟨.same (h.frame.same .jobs hj), .same (h.frame.same .dlq hd), .same (h.frame.same .outbox ho),
    h.frame.draws, h.disk⟩

/-- The parts that a program outside the job table can change. -/
def aside : List Part := [.documents, .chunks, .reports, .tokens, .interrupted, .index]

theorem keeps_step_of_touches {m : Act α} (h : Touches aside m) : Keeps (Step env guard) m :=
  h.mono (fun _ _ ho => Step.of_only ho (by decide) (by decide) (by decide))

theorem meets_touches {K : List Part} {m : Act α} {w : World} (h : Touches K m)
    (hK : K ⊆ aside) : Meets (Step env guard) m w (fun _ w' => Frame K w w') :=
  ⟨keeps_step_of_touches (h.widen hK) w, h.frame w⟩

/-! ## Names are fresh -/

/-- Each job, item and event has a name that was drawn. -/
structure Named (env : Env) (w : World) : Prop where
  jobs : ∀ id job, w.store.jobs.get? id = some job → DrawnBefore env "job_" w.draws id
  dlq : ∀ id item, w.store.dlq_items.get? id = some item → DrawnBefore env "dlq_" w.draws id
  outbox : ∀ id event, w.store.domain_events_outbox.get? id = some event →
    DrawnBefore env "evt_" w.draws id

theorem named_start : Named env World.start :=
  ⟨fun _ _ h => by simp [World.start, Store.empty] at h,
    fun _ _ h => by simp [World.start, Store.empty] at h,
    fun _ _ h => by simp [World.start, Store.empty] at h⟩

theorem named_of_put {κ ν : Type} [DecidableEq κ] {key : ν → κ} {t : Table key} {v : ν}
    {P : κ → Prop} (h : ∀ k w, t.get? k = some w → P k) (hv : P (key v)) :
    ∀ k w, (t.put v).get? k = some w → P k := by
  intro k w hw
  rw [Table.get?_put] at hw
  split at hw
  · rename_i hk
    exact hk ▸ hv
  · exact h k w hw

theorem jobs_named {w w' : World} (hn : Named env w) (h : JobStep env guard w w') :
    ∀ id job, w'.store.jobs.get? id = some job → DrawnBefore env "job_" w.draws id := by
  cases h with
  | same hsame =>
    rw [hsame]
    exact hn.jobs
  | created job hid hnew hqueued hguard hjobs =>
    rw [hjobs]
    exact named_of_put hn.jobs hid
  | noted job job' hjob hsame hstatus hjobs =>
    rw [hjobs]
    exact named_of_put hn.jobs (hsame.job_id ▸ hn.jobs _ _ hjob)
  | moved job job' hjob hsame hedge hguard hjobs =>
    rw [hjobs]
    exact named_of_put hn.jobs (hsame.job_id ▸ hn.jobs _ _ hjob)

theorem items_named {w w' : World} (hn : Named env w) (h : DlqStep env w w') :
    ∀ id item, w'.store.dlq_items.get? id = some item → DrawnBefore env "dlq_" w.draws id := by
  cases h with
  | same hsame =>
    rw [hsame]
    exact hn.dlq
  | seeded item hid hnew hitems =>
    rw [hitems]
    exact named_of_put hn.dlq hid
  | closed item item' hitem hid hjob htenant hitems =>
    rw [hitems]
    exact named_of_put hn.dlq (hid ▸ hn.dlq _ _ hitem)

theorem events_named {w w' : World} (hn : Named env w) (h : OutboxStep env w w') :
    ∀ id event, w'.store.domain_events_outbox.get? id = some event →
      DrawnBefore env "evt_" w.draws id := by
  cases h with
  | same hsame =>
    rw [hsame]
    exact hn.outbox
  | announced event hid hnew hevents =>
    rw [hevents]
    exact named_of_put hn.outbox hid

theorem named_step {w w' : World} (hn : Named env w) (h : Step env guard w w') : Named env w' :=
  ⟨fun id job hj => (jobs_named hn h.jobs id job hj).mono h.draws,
    fun id item hi => (items_named hn h.dlq id item hi).mono h.draws,
    fun id event he => (events_named hn h.outbox id event he).mono h.draws⟩

theorem named_last {w : World} {written : List World} (hn : Named env w)
    (h : Steps (Step env guard) w written) : Named env (lastState w written) :=
  h.invariant_last (fun _ _ hstep hn => named_step hn hstep) hn

theorem Named.frame {K : List Part} {w w' : World} (hn : Named env w) (hf : Frame K w w')
    (hj : .jobs ∉ K) (hd : .dlq ∉ K) (ho : .outbox ∉ K) : Named env w' := by
  have hjobs : w'.store.jobs = w.store.jobs := hf.same .jobs hj
  have hdlq : w'.store.dlq_items = w.store.dlq_items := hf.same .dlq hd
  have houtbox : w'.store.domain_events_outbox = w.store.domain_events_outbox :=
    hf.same .outbox ho
  refine ⟨fun id job h => ?_, fun id item h => ?_, fun id event h => ?_⟩
  · rw [hjobs] at h
    exact (hn.jobs id job h).mono hf.draws
  · rw [hdlq] at h
    exact (hn.dlq id item h).mono hf.draws
  · rw [houtbox] at h
    exact (hn.outbox id event h).mono hf.draws

/-- The names are fresh at the end of a program too. -/
theorem meets_named {m : Act α} {w : World} {Q : Except PyErr α → World → Prop}
    (hn : Named env w) (h : Meets (Step env guard) m w Q) :
    Meets (Step env guard) m w (fun r w' => Q r w' ∧ Named env w') :=
  ⟨h.1, h.2, named_last hn h.1⟩

/-- A draw gives a name that nothing has. -/
theorem undrawn {kind : String} {n : Nat} :
    ¬ DrawnBefore env kind n (kind ++ env.uuid4.hex12 n) := by
  rintro ⟨m, hm, hname⟩
  have := env.uuid4.distinct ((String.append_right_inj kind).1 hname)
  omega

theorem fresh_job {w : World} (hn : Named env w) :
    w.store.jobs.get? ("job_" ++ env.uuid4.hex12 w.draws) = none := by
  by_contra hne
  obtain ⟨job, hjob⟩ := Option.ne_none_iff_exists'.1 hne
  exact undrawn (hn.jobs _ job hjob)

/-! ## Small specs -/

/-- A draw changes the number of draws and nothing else. -/
theorem uuid4_hex12.spec (w : World) :
    Meets (Step env guard) (uuid4_hex12 env) w
      (fun r w' => r = .ok (env.uuid4.hex12 w.draws) ∧ w' = { w with draws := w.draws + 1 }) := by
  simp only [uuid4_hex12, draw, meets_bind, meets_read, meets_write, then_ok, meets_pure, and_true]
  exact ⟨.same rfl, .same rfl, .same rfl, Nat.le_succ _, .inl rfl⟩

theorem save_state.spec (w : World) :
    Meets (Step env guard) (save_state env) w (fun r w' => r = .ok () ∧ Frame [] w w') := by
  refine (meets_touches (K := []) (touches_save_state env) (by decide)).and ?_ |>.post
    (fun r w' h => ⟨h.2, h.1⟩)
  unfold save_state
  rw [meets_ite]
  refine ⟨fun _ => ?_, fun _ => ?_⟩
  · simp only [meets_write, and_true]
    exact ⟨.same rfl, .same rfl, .same rfl, Nat.le_refl _, .inr ⟨rfl, rfl⟩⟩
  · simp only [meets_pure]

/-- A saved operation ends as the operation does, but for the disk. -/
theorem meets_saving {m : Act α} {w : World} {Q : Except PyErr α → World → Prop}
    (h : Meets (Step env guard) m w Q)
    (hQ : ∀ a t t', Q (.ok a) t → Frame [] t t' → Q (.ok a) t') :
    Meets (Step env guard) (saving env m) w Q := by
  refine h.bind (fun a t ha => ?_) (fun e t he => he)
  refine (save_state.spec t).bind (fun u t' hu => ?_) (fun e t' hu => by cases hu.1)
  rw [meets_pure]
  exact hQ a t t' ha hu.2

/-! ## A job is read and moved -/

/-- The store has the job as it is. -/
def Stored (w : World) (job : Job) : Prop := w.store.jobs.get? job.job_id = some job

/-- The job is stored and the tenant may see it. -/
structure Visible (w : World) (job : Job) (tenant_id : Option String) : Prop where
  stored : Stored w job
  scope : ∀ tenant, tenant_id = some tenant → job.tenant_id = tenant

theorem Stored.frame {K : List Part} {w w' : World} {job : Job} (h : Stored w job)
    (hf : Frame K w w') (hK : .jobs ∉ K) : Stored w' job := by
  have hsame : w'.store.jobs = w.store.jobs := hf.same .jobs hK
  unfold Stored
  rw [hsame]
  exact h

theorem Visible.frame {K : List Part} {w w' : World} {job : Job} {tenant_id : Option String}
    (h : Visible w job tenant_id) (hf : Frame K w w') (hK : .jobs ∉ K) :
    Visible w' job tenant_id := ⟨h.stored.frame hf hK, h.scope⟩

theorem Stored.unique {w : World} {job job' : Job} (h : Stored w job) (h' : Stored w job')
    (hid : job'.job_id = job.job_id) : job' = job := by
  unfold Stored at h h'
  rw [hid, h] at h'
  exact (Option.some.inj h').symm

theorem require_job.spec {R : World → World → Prop} (w : World) (job_id : String)
    (tenant_id : Option String) :
    Meets R (require_job job_id tenant_id) w (fun r w' => w' = w ∧
      ∀ job, r = .ok job ↔ job.job_id = job_id ∧ Visible w job tenant_id) := by
  unfold require_job
  rw [meets_bind, meets_read, then_ok]
  split
  · rename_i hnone
    simp only [job_not_found, raise_api, meets_raise, reduceCtorEq, false_iff, true_and]
    rintro job ⟨rfl, hv⟩
    exact absurd (hv.stored.symm.trans hnone) (by simp)
  · rename_i found hfound
    have hkey : found.job_id = job_id := w.store.jobs.key_of_get? hfound
    have hstored : Stored w found := by
      unfold Stored
      rw [hkey]
      exact hfound
    have hunique : ∀ job, job.job_id = job_id → Stored w job → job = found :=
      fun job hid hs => hstored.unique hs (hid.trans hkey.symm)
    split
    · simp only [meets_pure, true_and, Except.ok.injEq]
      refine fun job => ⟨?_, fun h => (hunique job h.1 h.2.stored).symm⟩
      rintro rfl
      exact ⟨hkey, hstored, by simp⟩
    · rename_i tenant
      simp only [assert_tenant_scope, meets_bind, meets_ite, raise_api, meets_raise, meets_pure,
        then_ok, then_error, true_and, reduceCtorEq, false_iff, Except.ok.injEq]
      refine ⟨fun hne job h => ?_, fun heq job => ⟨?_, fun h => ?_⟩⟩
      · have := hunique job h.1 h.2.stored
        exact hne (this ▸ h.2.scope tenant rfl)
      · rintro rfl
        refine ⟨hkey, hstored, ?_⟩
        rintro t ht
        cases ht
        exact not_not.1 heq
      · exact (hunique job h.1 h.2.stored).symm

/-- The record of a job that moved. -/
def moved (job : Job) (status : JobStatus) : Job :=
  { job with
    retry_count := if status = .retrying then job.retry_count + 1 else job.retry_count
    status := status }

theorem moved_same (job : Job) (status : JobStatus) : SameJob job (moved job status) :=
  ⟨rfl, rfl, rfl, rfl, rfl, rfl⟩

/-- One job was written, and nothing else that has a name. -/
structure Put (w w' : World) (job : Job) : Prop where
  jobs : w'.store.jobs = w.store.jobs.put job
  frame : Frame [.jobs] w w'

theorem Put.stored {w w' : World} {job : Job} (h : Put w w' job) : Stored w' job := by
  unfold Stored
  rw [h.jobs, Table.get?_put_self]

theorem Put.saved {w w' w'' : World} {job : Job} (h : Put w w' job) (hf : Frame [] w' w'') :
    Put w w'' job := by
  have hsame : w''.store.jobs = w'.store.jobs := hf.same .jobs (by simp)
  exact ⟨hsame.trans h.jobs, h.frame.trans (hf.mono (by simp))⟩

/-- The write of one job, when it is a step. -/
theorem persist_job.spec {w : World} {job : Job}
    (h : JobStep env guard w { w with store := { w.store with jobs := w.store.jobs.put job } }) :
    Meets (Step env guard) (persist_job job) w (fun r w' => r = .ok job ∧ Put w w' job) := by
  simp only [persist_job, update, meets_bind, meets_write, then_ok, meets_pure, true_and]
  refine ⟨⟨h, .same rfl, .same rfl, Nat.le_refl _, .inl rfl⟩, rfl, ?_, Nat.le_refl _⟩
  intro p hp
  cases p <;> first | rfl | exact absurd List.mem_cons_self hp

/-- A note on a job that is stored. -/
theorem persist_job.note {w : World} {job job' : Job} (hjob : Stored w job)
    (hsame : SameJob job job') (hstatus : job'.status = job.status) :
    Meets (Step env guard) (persist_job job') w (fun r w' => r = .ok job' ∧ Put w w' job') :=
  persist_job.spec (.noted job job' hjob hsame hstatus rfl)

/-- What a checked transition does, in every case. -/
theorem transition_job_status.spec {w : World} {job_id : String} {status : JobStatus}
    {tenant_id : Option String} (hguard : ∀ job, Visible w job tenant_id → job.job_id = job_id →
      status ∈ ALLOWED_TRANSITIONS job.status → guard w (moved job status)) :
    Meets (Step env guard) (transition_job_status env job_id status tenant_id) w (fun r w' =>
      match r with
      | .ok job' => ∃ job, job.job_id = job_id ∧ Visible w job tenant_id ∧
          (status = job.status ∧ job' = job ∧ Frame [] w w' ∨
            status ∈ ALLOWED_TRANSITIONS job.status ∧ job' = moved job status ∧ Put w w' job')
      | .error _ => w' = w ∧ ∀ job, job.job_id = job_id → Visible w job tenant_id →
          status ≠ job.status ∧ status ∉ ALLOWED_TRANSITIONS job.status) := by
  unfold transition_job_status
  refine meets_saving ((require_job.spec w job_id tenant_id).bind ?_ ?_) ?_
  · rintro job t ⟨rfl, hjob⟩
    obtain ⟨hid, hv⟩ := (hjob job).1 rfl
    have hunique : ∀ found, found.job_id = job_id → Visible t found tenant_id → found = job :=
      fun found hf hfv => hv.stored.unique hfv.stored (hf.trans hid.symm)
    rw [meets_ite, meets_ite]
    refine ⟨fun hsame => ?_, fun hne => ⟨fun hno => ?_, fun hedge => ?_⟩⟩
    · rw [meets_pure]
      exact ⟨job, hid, hv, .inl ⟨hsame, rfl, Frame.refl t⟩⟩
    · simp only [raise_api, meets_raise, true_and]
      intro found hf hfv
      rw [hunique found hf hfv]
      exact ⟨hne, hno⟩
    · rw [not_not] at hedge
      refine (persist_job.spec (.moved job (moved job status) hv.stored (moved_same job status)
        hedge (hguard job hv hid hedge) rfl)).post ?_
      rintro r t' ⟨rfl, hput⟩
      exact ⟨job, hid, hv, .inr ⟨hedge, rfl, hput⟩⟩
  · rintro e t ⟨rfl, hjob⟩
    refine ⟨rfl, fun job hid hv => ?_⟩
    exact absurd ((hjob job).2 ⟨hid, hv⟩) (by simp)
  · rintro job' t t' ⟨job, hid, hv, hcase⟩ hf
    refine ⟨job, hid, hv, ?_⟩
    rcases hcase with ⟨hsame, hjob', hframe⟩ | ⟨hedge, hjob', hput⟩
    · exact .inl ⟨hsame, hjob', hframe.trans hf⟩
    · exact .inr ⟨hedge, hjob', hput.saved hf⟩

/-- A transition along an edge goes through. -/
theorem transition_job_status.edge {w : World} {job : Job} {status : JobStatus}
    {tenant_id : Option String} (hv : Visible w job tenant_id)
    (hedge : status ∈ ALLOWED_TRANSITIONS job.status) (hguard : guard w (moved job status)) :
    Meets (Step env guard) (transition_job_status env job.job_id status tenant_id) w
      (fun r w' => r = .ok (moved job status) ∧ Put w w' (moved job status)) := by
  have hunique : ∀ found, found.job_id = job.job_id → Visible w found tenant_id → found = job :=
    fun found hf hfv => hv.stored.unique hfv.stored hf
  refine (transition_job_status.spec ?_).post ?_
  · intro found hfv hf _
    rw [hunique found hf hfv]
    exact hguard
  · rintro (e | job') w' h
    · exact absurd hedge (h.2 job rfl hv).2
    · obtain ⟨found, hf, hfv, hcase⟩ := h
      rw [hunique found hf hfv] at hcase
      rcases hcase with ⟨hsame, -, -⟩ | ⟨-, rfl, hput⟩
      · rw [← hsame] at hedge
        exact absurd hedge (by cases status <;> simp [ALLOWED_TRANSITIONS])
      · exact ⟨rfl, hput⟩

end bid_evaluation.job_steps
