-- What each call does to the announcements of the jobs: an operation appends
-- them to the outbox, a relay puts a message for each of them into a queue,
-- and a round of the worker or of the drain route runs the job of a message.
import BidEvaluation.Writes
import BidEvaluation.WorkerLaws
import BidEvaluation.IterationLaws
import BidEvaluation.RelayLaws
import BidEvaluation.AnnounceLaws

open dict_lib stepwise bid_evaluation.values bid_evaluation.core bid_evaluation.store_ops
  bid_evaluation.store_workflow bid_evaluation.store_admin bid_evaluation.store_parse
  bid_evaluation.store_eval bid_evaluation.job_run bid_evaluation.operations
  bid_evaluation.job_steps bid_evaluation.run_steps bid_evaluation.op_steps
  bid_evaluation.job_laws bid_evaluation.writes bid_evaluation.queue_backend
  bid_evaluation.service
open bid_evaluation.worker_laws (afterRun ticked final_with_now handle_no_job handle_raised
  handle_returned drain_no_job drain_raised drain_returned)

namespace bid_evaluation.delivery

variable {env : Env} {w w' : World}

/-! ## The events of an operation -/

/-- The event of a stored job, with the payload that its creator gives it. -/
structure Announcement (w : World) (event : OutboxEvent) : Prop where
  job_id : PyDict.getD event.payload "job_id" (.str event.aggregate_id) = .str event.aggregate_id
  attempt : PyDict.getD event.payload "attempt" (.int 0) = .int 0
  job : ∃ job, w.store.jobs.get? event.aggregate_id = some job ∧ job.tenant_id = event.tenant_id

/-- One write to the outbox. -/
inductive PostStep (env : Env) (w w' : World) : Prop where
  | same (h : w'.store.domain_events_outbox = w.store.domain_events_outbox)
  | posted (event : OutboxEvent) (hpending : event.status = "pending")
      (hnew : w.store.domain_events_outbox.get? event.event_id = none)
      (hevent : Announcement w event) (hjobs : w'.store.jobs = w.store.jobs)
      (hevents : w'.store.domain_events_outbox = w.store.domain_events_outbox.put event)

/-- Every write of the program is one, whatever it returns. -/
abbrev Posts (env : Env) (m : Act α) (w : World) : Prop :=
  Meets (PostStep env) m w fun _ _ => True

/-- The names of the events were drawn before. -/
def EventsDrawn (env : Env) (w : World) : Prop :=
  ∀ id event, w.store.domain_events_outbox.get? id = some event →
    DrawnBefore env "evt_" w.draws id

/-- Since `w`, jobs and events have stayed. -/
structure Aside (w t : World) : Prop where
  jobs : t.store.jobs = w.store.jobs
  events : t.store.domain_events_outbox = w.store.domain_events_outbox
  draws : w.draws ≤ t.draws

theorem Aside.refl (w : World) : Aside w w := ⟨rfl, rfl, Nat.le_refl _⟩

theorem Aside.trans {w₁ w₂ w₃ : World} (h : Aside w₁ w₂) (h' : Aside w₂ w₃) : Aside w₁ w₃ :=
  ⟨h'.jobs.trans h.jobs, h'.events.trans h.events, h.draws.trans h'.draws⟩

theorem Aside.drawn {t : World} (h : Aside w t) (hw : EventsDrawn env w) : EventsDrawn env t := by
  intro id event hevent
  rw [h.events] at hevent
  exact (hw id event hevent).mono h.draws

/-- A write of another kind leaves jobs and events alone. -/
theorem Aside.of_write {kind : Kind} (h : Write kind w w') (hj : kind ≠ .jobs)
    (ho : kind ≠ .outbox) : Aside w w' := by
  cases h with
  | draw => exact ⟨rfl, rfl, Nat.le_succ _⟩
  | save => exact ⟨rfl, rfl, Nat.le_refl _⟩
  | wait => exact ⟨rfl, rfl, Nat.le_refl _⟩
  | index => exact ⟨rfl, rfl, Nat.le_refl _⟩
  | store _ hstore =>
    cases hstore with
    | job => exact absurd rfl hj
    | event => exact absurd rfl ho
    | _ => exact ⟨rfl, rfl, Nat.le_refl _⟩

theorem aside_final {K : List Kind} {m : Act α} (h : Writes K m) (hj : .jobs ∉ K)
    (ho : .outbox ∉ K) (w : World) : Aside w (m.final w) := by
  have hsteps : Keeps Aside m := h.mono fun _ _ ⟨kind, hkind, hwrite⟩ => by
    refine Aside.of_write hwrite ?_ ?_
    · rintro rfl
      simp [hj] at hkind
    · rintro rfl
      simp [ho] at hkind
  exact hsteps.final Aside.refl (fun _ _ _ => Aside.trans) w

/-- A program that appends no event leaves the outbox as it is. -/
theorem keeps_events {K : List Kind} {m : Act α} (h : Writes K m) (ho : .outbox ∉ K) :
    Keeps (fun w w' => w'.store.domain_events_outbox = w.store.domain_events_outbox) m := by
  refine h.mono ?_
  rintro w w' ⟨kind, hkind, hwrite⟩
  cases hwrite with
  | store _ hstore =>
    cases hstore with
    | event => simp [ho] at hkind
    | _ => rfl
  | _ => rfl

theorem posts_of_writes {K : List Kind} {m : Act α} (h : Writes K m) (ho : .outbox ∉ K)
    (w : World) : Posts env m w :=
  ((keeps_events h ho).mono fun _ _ => .same : Keeps (PostStep env) m).meets w

/-- Go past a program that touches neither jobs nor events. -/
theorem past_aside {K : List Kind} {m : Act α} {f : α → Act β} (h : Writes K m) (hj : .jobs ∉ K)
    (ho : .outbox ∉ K) (hf : ∀ a t, Aside w t → Posts env (f a) t) : Posts env (m >>= f) w :=
  Meets.bind (P := fun _ t => Aside w t)
    ⟨(posts_of_writes h ho w).1, aside_final h hj ho w⟩ hf fun _ _ _ => trivial

/-- Go past the write of a job. It is stored from then on. -/
theorem past_job {job : Job} {f : Job → Act β} (hw : EventsDrawn env w)
    (hf : ∀ t, t.store.jobs.get? job.job_id = some job → EventsDrawn env t → Posts env (f job) t) :
    Posts env (persist_job job >>= f) w := by
  simp only [persist_job, update, meets_bind, meets_write, then_ok, meets_pure]
  exact ⟨.same rfl, hf _ (Table.get?_put_self _ _) hw⟩

theorem past_read {f : World → Act β} (h : Posts env (f w) w) : Posts env (stepwise.read >>= f) w :=
  meets_bind.2 (meets_read.2 h)

theorem posts_saving {m : Act α} (h : Posts env m w) : Posts env (saving env m) w := by
  refine h.bind (fun a t _ => ?_) fun _ _ _ => trivial
  exact posts_of_writes (K := []) (keeps_bind (writes_save_state env) fun _ => keeps_pure _)
    (by simp) t

theorem posts_quiet {m : Act α} (h : Posts env m w) : Posts env (quiet m) w :=
  h.bind (fun _ _ _ => meets_pure.2 trivial) fun _ _ _ => trivial

/-- The announcement of a job that is stored. -/
theorem announce_job.posts {tenant_id job_id : String} {job : Job}
    (job_type resource_type resource_id : String) (hw : EventsDrawn env w)
    (hjob : w.store.jobs.get? job_id = some job) (htenant : job.tenant_id = tenant_id) :
    Posts env (announce_job env tenant_id job_id job_type resource_type resource_id) w := by
  refine posts_saving ?_
  have hhex : Meets (Step env anyJob) (uuid4_hex12 env) w _ := uuid4_hex12.spec w
  refine ((posts_of_writes (writes_uuid4 env (K := [])) (by simp) w).ending hhex).bind ?_
    fun _ _ _ => trivial
  rintro hex t ⟨⟨⟩, rfl⟩
  refine past_aside (writes_utcnow env (K := [])) (by simp) (by simp) fun created_at t ht => ?_
  have hjobs := ht.jobs
  have hevents := ht.events
  simp only [update, meets_bind, meets_write, then_ok, meets_pure, and_true]
  refine .posted _ rfl ?_ ⟨rfl, rfl, job, ?_, htenant⟩ rfl rfl
  · rw [hevents]
    by_contra hne
    obtain ⟨event, hevent⟩ := Option.ne_none_iff_exists'.1 hne
    exact undrawn (hw _ event hevent)
  · rw [hjobs]
    exact hjob

/-- A creator ends with the announcement of its job. -/
theorem announces {tenant_id job_id : String} {job : Job} {a : β}
    (job_type resource_type resource_id : String) (hw : EventsDrawn env w)
    (hjob : w.store.jobs.get? job_id = some job) (htenant : job.tenant_id = tenant_id) :
    Posts env (announce_job env tenant_id job_id job_type resource_type resource_id >>=
      fun _ => pure a) w :=
  (announce_job.posts job_type resource_type resource_id hw hjob htenant).bind
    (fun _ _ _ => meets_pure.2 trivial) fun _ _ _ => trivial

theorem create_parse_job.posts (hw : EventsDrawn env w) (document_id trace_id tenant_id : String) :
    Posts env (create_parse_job env document_id trace_id tenant_id) w := by
  refine posts_saving (past_aside (writes_get_document (K := []) _ _) (by simp) (by simp)
    fun document t ht => ?_)
  cases document with
  | none => exact posts_of_writes (K := []) (keeps_raise _) (by simp) t
  | some document =>
    refine past_aside (writes_uuid4 env (K := [])) (by simp) (by simp) fun hex t₁ ht₁ => ?_
    refine past_aside (writes_new_thread_id env (K := []) _) (by simp) (by simp)
      fun thread_id t₂ ht₂ => past_job (((ht.trans ht₁).trans ht₂).drawn hw)
        fun t₃ hjob hdrawn => ?_
    refine past_aside (K := []) (keeps_bind (writes_uuid4 env) fun _ => keeps_pure _) (by simp)
      (by simp) fun manifest t₄ ht₄ => ?_
    refine past_aside (writes_persist_manifest (K := [.manifests]) (by simp) _) (by simp) (by simp)
      fun _ t₅ ht₅ => ?_
    refine past_aside (writes_persist_document (K := [.documents]) (by simp) _) (by simp) (by simp)
      fun _ t₆ ht₆ => ?_
    have hlater := (ht₄.trans ht₅).trans ht₆
    exact announces _ _ _ (hlater.drawn hdrawn) (hlater.jobs ▸ hjob) rfl

theorem create_upload_job.posts (hw : EventsDrawn env w) (payload : UploadPayload)
    (has_file : Bool) : Posts env (create_upload_job env payload has_file) w := by
  refine posts_saving (past_read ?_)
  split
  · exact meets_pure.2 trivial
  · refine past_aside (writes_uuid4 env (K := [])) (by simp) (by simp) fun hex t₁ ht₁ => ?_
    refine past_aside (K := []) (keeps_ite (keeps_bind (writes_put_held_object env _ _ _)
      fun _ => keeps_pure _) (keeps_pure _)) (by simp) (by simp) fun uri t₂ ht₂ => ?_
    refine past_aside (writes_persist_document (K := [.documents]) (by simp) _) (by simp) (by simp)
      fun _ t₃ ht₃ => ?_
    refine past_aside (writes_persist_chunks env (K := [.chunks]) (by simp) _ _ _) (by simp)
      (by simp) fun _ t₄ ht₄ => ?_
    exact (create_parse_job.posts ((((ht₁.trans ht₂).trans ht₃).trans ht₄).drawn hw) _ _ _).bind
      (fun _ _ _ => meets_pure.2 trivial) fun _ _ _ => trivial

theorem create_evaluation_job.posts (hw : EventsDrawn env w) (payload : EvaluationPayload) :
    Posts env (create_evaluation_job env payload) w := by
  refine posts_saving (past_aside (writes_uuid4 env (K := [])) (by simp) (by simp)
    fun evaluation_hex t₁ ht₁ => ?_)
  refine past_aside (writes_uuid4 env (K := [])) (by simp) (by simp) fun job_hex t₂ ht₂ => ?_
  refine past_aside (writes_new_thread_id env (K := []) _) (by simp) (by simp)
    fun thread_id t₃ ht₃ => ?_
  refine past_aside (writes_nodes env (K := [.tokens, .reports, .sources]) (by simp) (by simp)
    (by simp) _) (by simp) (by simp) fun _ t₄ ht₄ => ?_
  refine past_job ((((ht₁.trans ht₂).trans ht₃).trans ht₄).drawn hw) fun t₅ hjob hdrawn => ?_
  exact announces _ _ _ hdrawn hjob rfl

theorem create_resume_job.posts (hw : EventsDrawn env w) (evaluation_id : String)
    (payload : ResumePayload) : Posts env (create_resume_job env evaluation_id payload) w := by
  refine posts_saving (past_aside (writes_uuid4 env (K := [])) (by simp) (by simp)
    fun hex t₁ ht₁ => past_read ?_)
  refine past_aside (K := []) (keeps_ite (writes_new_thread_id env _) (keeps_pure _)) (by simp)
    (by simp) fun thread_id t₂ ht₂ => past_job ((ht₁.trans ht₂).drawn hw) fun t₃ hjob hdrawn => ?_
  refine past_aside (writes_clear_review env (K := [.reports]) (by simp) _) (by simp) (by simp)
    fun _ t₄ ht₄ => ?_
  refine past_aside (writes_audit env (K := []) _ _ _) (by simp) (by simp) fun _ t₅ ht₅ => ?_
  have hlater := ht₄.trans ht₅
  exact announces _ _ _ (hlater.drawn hdrawn) (hlater.jobs ▸ hjob) rfl

theorem execute_resume.posts (hw : EventsDrawn env w) (evaluation_id resume_token : String)
    (payload : ResumePayload) :
    Posts env (execute_resume env evaluation_id resume_token payload) w := by
  refine past_aside (writes_consume_token env (K := [.tokens]) (by simp) _ _ _) (by simp)
    (by simp) fun consumed t ht => ?_
  refine meets_ite.2 ⟨fun _ => create_resume_job.posts (ht.drawn hw) _ _, fun _ => ?_⟩
  exact posts_of_writes (K := []) (keeps_raise _) (by simp) t

/-- Whatever an operation posts is the announcement of a stored job. -/
theorem posts_op (hw : EventsDrawn env w) (op : operations.Op) : Posts env (op.act env) w := by
  have hno : .outbox ∉ kinds_of op → Posts env (op.act env) w := fun ho =>
    posts_of_writes (writes_op env op) ho w
  cases op with
  | upload payload has_file => exact posts_quiet (create_upload_job.posts hw _ _)
  | create_parse_job document_id trace_id tenant_id =>
    exact posts_quiet (create_parse_job.posts hw _ _ _)
  | create_evaluation_job payload => exact posts_quiet (create_evaluation_job.posts hw _)
  | create_resume_job evaluation_id payload => exact posts_quiet (create_resume_job.posts hw _ _)
  | resume evaluation_id resume_token payload => exact posts_quiet (execute_resume.posts hw _ _ _)
  | _ => exact hno (by simp [kinds_of, runKinds])

/-! ## What an operation leaves -/

/-- The job has left the queue, and the queue is not for it any more. -/
def Left (w : World) (job_id : String) : Prop :=
  ∃ job, w.store.jobs.get? job_id = some job ∧ job.status ≠ .queued

/-- How jobs, events and deliveries go on over a program of the store. -/
structure Flow (w w' : World) : Prop where
  draws : w.draws ≤ w'.draws
  records : w'.store.outbox_delivery_records = w.store.outbox_delivery_records
  jobs : ∀ id job, w.store.jobs.get? id = some job → ∃ job', w'.store.jobs.get? id = some job' ∧
    job'.tenant_id = job.tenant_id ∧ (job.status ≠ .queued → job'.status ≠ .queued)
  kept : ∀ id event, w.store.domain_events_outbox.get? id = some event →
    w'.store.domain_events_outbox.get? id = some event
  posted : ∀ id event, w'.store.domain_events_outbox.get? id = some event →
    w.store.domain_events_outbox.get? id = some event ∨
      w.store.domain_events_outbox.get? id = none ∧ event.status = "pending" ∧ Announcement w' event

theorem Flow.refl (w : World) : Flow w w :=
  ⟨Nat.le_refl _, rfl, fun _ job h => ⟨job, h, rfl, id⟩, fun _ _ h => h, fun _ _ h => .inl h⟩

theorem Flow.left {job_id : String} (h : Flow w w') (hleft : Left w job_id) : Left w' job_id := by
  obtain ⟨job, hjob, hstatus⟩ := hleft
  obtain ⟨job', hjob', -, hkept⟩ := h.jobs _ job hjob
  exact ⟨job', hjob', hkept hstatus⟩

theorem Flow.announcement {event : OutboxEvent} (h : Flow w w') (hevent : Announcement w event) :
    Announcement w' event := by
  obtain ⟨job, hjob, htenant⟩ := hevent.job
  obtain ⟨job', hjob', hsame, -⟩ := h.jobs _ job hjob
  exact ⟨hevent.job_id, hevent.attempt, job', hjob', hsame.trans htenant⟩

theorem Flow.trans {w₁ w₂ w₃ : World} (h : Flow w₁ w₂) (h' : Flow w₂ w₃) : Flow w₁ w₃ := by
  refine ⟨h.draws.trans h'.draws, h'.records.trans h.records, ?_, ?_, ?_⟩
  · intro id job hjob
    obtain ⟨job₂, hjob₂, htenant₂, hstatus₂⟩ := h.jobs id job hjob
    obtain ⟨job₃, hjob₃, htenant₃, hstatus₃⟩ := h'.jobs id job₂ hjob₂
    exact ⟨job₃, hjob₃, htenant₃.trans htenant₂, fun hne => hstatus₃ (hstatus₂ hne)⟩
  · intro id event hevent
    exact h'.kept id event (h.kept id event hevent)
  · intro id event hevent
    rcases h'.posted id event hevent with hold | ⟨hnone, hpending, hnew⟩
    · rcases h.posted id event hold with holder | ⟨hnone, hpending, hnew⟩
      · exact .inl holder
      · exact .inr ⟨hnone, hpending, h'.announcement hnew⟩
    · refine .inr ⟨?_, hpending, hnew⟩
      by_contra hne
      obtain ⟨older, holder⟩ := Option.ne_none_iff_exists'.1 hne
      rw [h.kept id older holder] at hnone
      cases hnone

/-- Jobs and deliveries of another world are those of this one. -/
theorem Flow.of_aside (h : Aside w w')
    (hrecords : w'.store.outbox_delivery_records = w.store.outbox_delivery_records) :
    Flow w w' := by
  refine ⟨h.draws, hrecords, ?_, ?_, ?_⟩
  · intro id job hjob
    exact ⟨job, h.jobs ▸ hjob, rfl, fun hne => hne⟩
  · intro id event hevent
    exact h.events ▸ hevent
  · intro id event hevent
    exact .inl (h.events ▸ hevent)

theorem flow_tick (w : World) : Flow w { w with draws := w.draws + 1 } :=
  .of_aside ⟨rfl, rfl, Nat.le_succ _⟩ rfl

/-- The jobs of a single write of an operation. -/
theorem jobs_flow {op : operations.Op} {guard : World → Job → Prop} (h : OpStep env guard op w w') :
    ∀ id job, w.store.jobs.get? id = some job → ∃ job', w'.store.jobs.get? id = some job' ∧
      job'.tenant_id = job.tenant_id ∧ (job.status ≠ .queued → job'.status ≠ .queued) := by
  -- A job that is put in the place of another is the same one, and no edge leads back.
  have hput : ∀ {old new : Job}, w.store.jobs.get? old.job_id = some old →
      new.job_id = old.job_id → new.tenant_id = old.tenant_id →
      (old.status ≠ .queued → new.status ≠ .queued) → w'.store.jobs = w.store.jobs.put new →
      ∀ id job, w.store.jobs.get? id = some job → ∃ job', w'.store.jobs.get? id = some job' ∧
        job'.tenant_id = job.tenant_id ∧ (job.status ≠ .queued → job'.status ≠ .queued) := by
    intro old new hold hid htenant hstatus hjobs id job hjob
    rw [hjobs, Table.get?_put]
    split
    · rename_i heq
      rw [heq, hid, hold] at hjob
      cases hjob
      exact ⟨new, rfl, htenant, hstatus⟩
    · exact ⟨job, hjob, rfl, fun hne => hne⟩
  cases h with
  | step hstep =>
    cases hstep.jobs with
    | same hsame =>
      intro id job hjob
      exact ⟨job, hsame ▸ hjob, rfl, fun hne => hne⟩
    | created new hid hnew hqueued hguard hjobs =>
      intro id job hjob
      refine ⟨job, ?_, rfl, fun hne => hne⟩
      rw [hjobs, Table.get?_put, if_neg, hjob]
      rintro rfl
      rw [hjob] at hnew
      cases hnew
    | noted old new hold hsame hstatus hjobs =>
      exact hput hold hsame.job_id hsame.tenant_id (fun hne => hstatus ▸ hne) hjobs
    | moved old new hold hsame hedge hguard hjobs =>
      refine hput hold hsame.job_id hsame.tenant_id (fun _ heq => ?_) hjobs
      rw [heq] at hedge
      exact not_moved_to_queued hedge
  | cancelled job_id tenant_id hop hstep =>
    obtain ⟨job, -, hstored, -, -, rfl⟩ := hstep
    have hid : (cancelled_job job).job_id = job.job_id := rfl
    exact hput hstored hid rfl (fun _ heq => by cases heq) rfl

/-- An event that is there stays as it is. -/
theorem PostStep.kept (h : PostStep env w w') {id : String} {event : OutboxEvent}
    (hevent : w.store.domain_events_outbox.get? id = some event) :
    w'.store.domain_events_outbox.get? id = some event := by
  cases h with
  | same hsame => exact hsame ▸ hevent
  | posted new hpending hnew hannounced hjobs hevents =>
    rw [hevents, Table.get?_put, if_neg, hevent]
    rintro rfl
    rw [hevent] at hnew
    cases hnew

/-- A single write of an operation, seen from all three sides. -/
theorem flow_step {op : operations.Op} {kind : Kind} (h : OpStep env anyJob op w w')
    (hpost : PostStep env w w') (hwrite : Write kind w w') : Flow w w' := by
  have hdraws : w.draws ≤ w'.draws := by
    cases hwrite with
    | draw => exact Nat.le_succ _
    | _ => exact Nat.le_refl _
  have hrecords : w'.store.outbox_delivery_records = w.store.outbox_delivery_records := by
    cases hwrite with
    | store _ hstore => cases hstore <;> rfl
    | _ => rfl
  refine ⟨hdraws, hrecords, jobs_flow h, fun _ _ => hpost.kept, fun id event hevent => ?_⟩
  cases hpost with
  | same hsame => exact .inl (hsame ▸ hevent)
  | posted new hpending hnew hannounced hjobs hevents =>
    rw [hevents, Table.get?_put] at hevent
    split at hevent
    · rename_i heq
      cases hevent
      refine .inr ⟨heq ▸ hnew, hpending, hannounced.job_id, hannounced.attempt, ?_⟩
      rw [hjobs]
      exact hannounced.job
    · exact .inl hevent

theorem flow_op (hn : Named env w) (op : operations.Op) : Flow w (perform env w op) := by
  have hjobs := steps_of_op any_new any_free hn op (permits_any op)
  have hall := hjobs.and ((posts_op hn.outbox op).1.and (writes_op env op w))
  refine (hall.mono ?_ : Steps Flow w _).last Flow.refl fun _ _ _ => Flow.trans
  rintro a b ⟨hstep, hpost, kind, -, hwrite⟩
  exact flow_step hstep hpost hwrite

/-! ## The run of a job -/

theorem final_run (job_id tenant_id : String) (flags : RunFlags) (w : World) :
    (run_job_once env job_id tenant_id flags).final w =
      perform env w (.run_job_once job_id tenant_id flags) :=
  (announce_laws.final_quiet _ w).symm

theorem run_posts_nothing (env : Env) (job_id tenant_id : String) (flags : RunFlags) (w : World) :
    ((run_job_once env job_id tenant_id flags).final w).store.domain_events_outbox =
      w.store.domain_events_outbox :=
  (keeps_events (writes_run env job_id tenant_id flags) (by decide)).final (fun _ => rfl)
    (fun _ _ _ h h' => h'.trans h) w

/-- After its run, whether that returned or raised, a job is not queued. -/
theorem run_leaves (hn : Named env w) {job_id : String} {job : Job}
    (hjob : w.store.jobs.get? job_id = some job) (flags : RunFlags) :
    Left ((run_job_once env job_id job.tenant_id flags).final w) job_id := by
  have hid : job.job_id = job_id := w.store.jobs.key_of_get? hjob
  have hstored : Stored w job := by
    unfold Stored
    rw [hid, hjob]
  have hspec : Meets (Step env anyJob) (run_job_once env job_id job.tenant_id flags) w _ :=
    run_job_once.spec any_free hn (permits_any (.run_job_once job_id job.tenant_id flags))
  have hleft : ∀ {K : List frames.Part} {w' : World} {found job' : Job}, found.job_id = job_id →
      Became K w w' found job' → job'.status ≠ .queued → Left w' job_id := by
    intro K w' found job' hfound hbecame hstatus
    refine ⟨job', ?_, hstatus⟩
    rw [← hfound, ← hbecame.same.job_id]
    exact hbecame.stored
  rcases hspec.2 with ⟨found, hfound, hvisible, -, hends⟩ | ⟨hno, -, -, hkept⟩
  · unfold RunEnds at hends
    split at hends
    · obtain ⟨job', hbecame, hstatus, hfinal⟩ := hends
      refine hleft hfound hbecame ?_
      rw [hstatus]
      intro heq
      rw [heq] at hfinal
      simp [final_statuses] at hfinal
    · obtain ⟨job', hbecame, hstatus⟩ := hends
      refine hleft hfound hbecame ?_
      rw [hstatus]
      unfold raised_status
      split
      · simp
      · split <;> simp
  · obtain ⟨job', hbecame, hstatus⟩ := hkept job hid hstored
    refine hleft hid hbecame ?_
    rw [hstatus]
    intro hqueued
    exact hno job hid ⟨hstored, fun _ h => Option.some.inj h⟩ (.inl (by rw [hqueued]; rfl))

end bid_evaluation.delivery
