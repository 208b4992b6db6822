-- What each operation of the service does to the jobs and the outbox, and
-- the runs of the system. An operation that makes a job has a spec that
-- says which job it left, and with which event.
import BidEvaluation.RunSteps

open dict_lib stepwise bid_evaluation.values bid_evaluation.core bid_evaluation.store_ops
  bid_evaluation.store_workflow bid_evaluation.store_admin bid_evaluation.store_parse
  bid_evaluation.evaluation_nodes bid_evaluation.langgraph_runtime bid_evaluation.store_eval
  bid_evaluation.job_run bid_evaluation.operations bid_evaluation.frames bid_evaluation.job_steps
  bid_evaluation.run_steps

namespace bid_evaluation.op_steps

variable {env : Env} {guard : World → Job → Prop}

/-! ## A new job -/

/-- Draw the name of a new job. No job has that name. -/
theorem past_job_name {w : World} {f : String → Act β} {Q : Except PyErr β → World → Prop}
    (hn : Named env w)
    (hok : ∀ hex t, Frame [] w t → DrawnBefore env "job_" t.draws ("job_" ++ hex) →
      w.store.jobs.get? ("job_" ++ hex) = none → Meets (Step env guard) (f hex) t Q) :
    Meets (Step env guard) (uuid4_hex12 env >>= f) w Q := by
  refine (uuid4_hex12.spec w).bind ?_ (by rintro e t ⟨he, -⟩; cases he)
  rintro hex t ⟨⟨⟩, rfl⟩
  exact hok _ _ ⟨fun p _ => by cases p <;> rfl, Nat.le_succ _⟩ ⟨_, Nat.lt_succ_self _, rfl⟩
    (fresh_job hn)

/-- The event that announces a job. -/
def HasEvent (w : World) (job : Job) : Prop :=
  ∃ event ∈ w.store.domain_events_outbox.values, event.event_type = "job.created" ∧
    event.aggregate_id = job.job_id ∧ event.tenant_id = job.tenant_id

instance (w : World) (job : Job) : Decidable (HasEvent w job) :=
  inferInstanceAs (Decidable (∃ event ∈ w.store.domain_events_outbox.values, _ ∧ _ ∧ _))

/-- Since `w` one new job was stored, which waits in the queue. -/
structure Opened (env : Env) (w t : World) (job : Job) : Prop where
  queued : job.status = .queued
  fresh : w.store.jobs.get? job.job_id = none
  jobs : t.store.jobs = w.store.jobs.put job
  named : Named env t

theorem Opened.later {K : List Part} {w t t' : World} {job : Job} (h : Opened env w t job)
    (hf : Frame K t t') (hj : .jobs ∉ K) (hd : .dlq ∉ K) (ho : .outbox ∉ K) :
    Opened env w t' job := by
  have hsame : t'.store.jobs = t.store.jobs := hf.same .jobs hj
  exact ⟨h.queued, h.fresh, hsame.trans h.jobs, h.named.frame hf hj hd ho⟩

/-- Go past the write of a new job. -/
theorem past_new {w t : World} {job : Job} {f : Job → Act β} {Q : Except PyErr β → World → Prop}
    (hjobs : t.store.jobs = w.store.jobs) (hid : DrawnBefore env "job_" t.draws job.job_id)
    (hfresh : w.store.jobs.get? job.job_id = none) (hqueued : job.status = .queued)
    (hguard : guard t job) (hn : Named env t)
    (hok : ∀ t', Opened env w t' job → Frame [.jobs] t t' → Meets (Step env guard) (f job) t' Q) :
    Meets (Step env guard) (persist_job job >>= f) t Q := by
  have hstep :
      JobStep env guard t { t with store := { t.store with jobs := t.store.jobs.put job } } :=
    .created job hid (hjobs ▸ hfresh) hqueued hguard rfl
  refine (meets_named hn (persist_job.spec hstep)).bind ?_ (by rintro e t' ⟨⟨he, -⟩, -⟩; cases he)
  rintro _ t' ⟨⟨⟨⟩, hput⟩, hn'⟩
  exact hok t' ⟨hqueued, hfresh, hjobs ▸ hput.jobs, hn'⟩ hput.frame

/-- Since `w` one new job was stored, and it was announced. -/
structure Created (w t : World) (job : Job) : Prop where
  queued : job.status = .queued
  fresh : w.store.jobs.get? job.job_id = none
  jobs : t.store.jobs = w.store.jobs.put job
  event : HasEvent t job

theorem Created.later {w t t' : World} {job : Job} (h : Created w t job) (hf : Frame [] t t') :
    Created w t' job := by
  have hsame : t'.store.jobs = t.store.jobs := hf.same .jobs (by simp)
  have hevents : t'.store.domain_events_outbox = t.store.domain_events_outbox :=
    hf.same .outbox (by simp)
  refine ⟨h.queued, h.fresh, hsame.trans h.jobs, ?_⟩
  obtain ⟨event, hevent, hrest⟩ := h.event
  exact ⟨event, hevents ▸ hevent, hrest⟩

theorem append_outbox_event.spec {w : World} (hn : Named env w)
    (tenant_id event_type aggregate_type aggregate_id : String) (payload : PyDict) :
    Meets (Step env guard)
      (append_outbox_event env tenant_id event_type aggregate_type aggregate_id payload) w
      (fun r w' => ∃ event, r = .ok event ∧ event.event_type = event_type ∧
        event.aggregate_id = aggregate_id ∧ event.tenant_id = tenant_id ∧
        w'.store.domain_events_outbox.get? event.event_id = some event ∧
        Frame [.outbox] w w') := by
  unfold append_outbox_event
  refine meets_saving ((uuid4_hex12.spec w).bind ?_ (by rintro e t ⟨he, -⟩; cases he)) ?_
  · rintro hex t ⟨⟨⟩, rfl⟩
    refine past_calm (touches_utcnow env) (returns_utcnow env) fun created_at t hf => ?_
    have hevents : t.store.domain_events_outbox = w.store.domain_events_outbox :=
      hf.same .outbox (by simp)
    have hdraws : w.draws < t.draws := hf.draws
    simp only [update, meets_bind, meets_write, then_ok, meets_pure]
    refine ⟨⟨.same rfl, .same rfl, .announced _ ⟨_, hdraws, rfl⟩ ?_ rfl, Nat.le_refl _,
      .inl rfl⟩, _, rfl, rfl, rfl, rfl, Table.get?_put_self _ _, fun p hp => ?_, hdraws.le⟩
    · rw [hevents]
      by_contra hne
      obtain ⟨event, hevent⟩ := Option.ne_none_iff_exists'.1 hne
      exact undrawn (hn.outbox _ event hevent)
    · have hsame := hf.same p (by simp)
      cases p <;> first | exact hsame | exact absurd List.mem_cons_self hp
  · rintro event t t' ⟨_, ⟨⟩, htype, haggregate, htenant, hevent, hf⟩ hsave
    have hsame : t'.store.domain_events_outbox = t.store.domain_events_outbox :=
      hsave.same .outbox (by simp)
    exact ⟨_, rfl, htype, haggregate, htenant, hsame ▸ hevent, hf.trans (hsave.mono (by simp))⟩

/-- Go past the announcement of a new job. -/
theorem past_announce {w t : World} {job : Job}
    {tenant_id job_id job_type resource_type resource_id : String} {f : OutboxEvent → Act β}
    {Q : Except PyErr β → World → Prop} (h : Opened env w t job)
    (hjob : job_id = job.job_id) (hscope : tenant_id = job.tenant_id)
    (hok : ∀ event t', Created w t' job → Meets (Step env guard) (f event) t' Q) :
    Meets (Step env guard)
      (announce_job env tenant_id job_id job_type resource_type resource_id >>= f) t Q := by
  refine (append_outbox_event.spec h.named _ _ _ _ _).bind ?_
    (by rintro e t' ⟨event, he, -⟩; cases he)
  rintro event t' ⟨_, ⟨⟩, htype, haggregate, htenant, hevent, hf⟩
  have hsame : t'.store.jobs = t.store.jobs := hf.same .jobs (by simp)
  exact hok event t' ⟨h.queued, h.fresh, hsame.trans h.jobs, event,
    (Table.mem_values_iff _ _).2 hevent, htype, haggregate.trans hjob, htenant.trans hscope⟩

/-! ## The creators -/

/-- A creator that returned a job id has made and announced that job. -/
def Creates (w w' : World) (job_id : String) : Prop :=
  ∃ job, job.job_id = job_id ∧ Created w w' job

theorem Creates.later {w t t' : World} {job_id : String} (h : Creates w t job_id)
    (hf : Frame [] t t') : Creates w t' job_id := by
  obtain ⟨job, hid, hcreated⟩ := h
  exact ⟨job, hid, hcreated.later hf⟩

theorem Creates.from {K : List Part} {w t t' : World} {job_id : String} (hf : Frame K w t)
    (hj : .jobs ∉ K) (h : Creates t t' job_id) : Creates w t' job_id := by
  have hjobs : t.store.jobs = w.store.jobs := hf.same .jobs hj
  obtain ⟨job, hid, hcreated⟩ := h
  exact ⟨job, hid, hcreated.queued, hjobs ▸ hcreated.fresh, hjobs ▸ hcreated.jobs, hcreated.event⟩

/-- Each job of `w'` was in `w` as it is, or it is announced. -/
def Announces (w w' : World) : Prop :=
  ∀ id job, w'.store.jobs.get? id = some job → w.store.jobs.get? id = some job ∨ HasEvent w' job

theorem Announces.of_same {w w' : World} (h : w'.store.jobs = w.store.jobs) : Announces w w' := by
  intro id job hjob
  exact .inl (h ▸ hjob)

theorem Creates.announces {w w' : World} {job_id : String} (h : Creates w w' job_id) :
    Announces w w' := by
  obtain ⟨job, -, hcreated⟩ := h
  intro id found hfound
  rw [hcreated.jobs, Table.get?_put] at hfound
  split at hfound
  · cases hfound
    exact .inr hcreated.event
  · exact .inl hfound

theorem Announces.later {w t t' : World} (h : Announces w t) (hf : Frame [] t t') :
    Announces w t' := by
  have hjobs : t'.store.jobs = t.store.jobs := hf.same .jobs (by simp)
  have hevents : t'.store.domain_events_outbox = t.store.domain_events_outbox :=
    hf.same .outbox (by simp)
  intro id job hjob
  rcases h id job (hjobs ▸ hjob) with hold | ⟨event, hevent, hrest⟩
  · exact .inl hold
  · exact .inr ⟨event, hevents ▸ hevent, hrest⟩

theorem Announces.from {K : List Part} {w t t' : World} (hf : Frame K w t) (hj : .jobs ∉ K)
    (h : Announces t t') : Announces w t' := by
  have hjobs : t.store.jobs = w.store.jobs := hf.same .jobs hj
  intro id job hjob
  exact hjobs ▸ h id job hjob

/-- What a program that returned left. Nothing is said of one that raised. -/
def OnReturn (Q : α → World → Prop) : Except PyErr α → World → Prop
  | .ok a, w => Q a w
  | .error _, _ => True

theorem on_return_saving {m : Act α} {w : World} {Q : α → World → Prop}
    (h : Meets (Step env guard) m w (OnReturn Q))
    (hQ : ∀ a t t', Q a t → Frame [] t t' → Q a t') :
    Meets (Step env guard) (saving env m) w (OnReturn Q) :=
  meets_saving h hQ

theorem returns_new_manifest (env : Env) (job_id tenant_id : String) (document : Document) :
    Returns (new_manifest env job_id tenant_id document) :=
  returns_bind (returns_uuid4 env) fun _ => returns_pure _

theorem touches_new_manifest {K : List Part} (env : Env) (job_id tenant_id : String)
    (document : Document) : Touches K (new_manifest env job_id tenant_id document) :=
  keeps_bind (touches_uuid4 env) fun _ => keeps_pure _

theorem touches_put_upload {K : List Part} (env : Env) (tenant_id document_id : String)
    (has_file : Bool) : Touches K (put_upload env tenant_id document_id has_file) :=
  keeps_ite (keeps_bind (touches_put_held_object env _ _ _) fun _ => keeps_pure _) (keeps_pure _)

theorem touches_resume_thread {K : List Part} (env : Env) (report : Option EvaluationReport) :
    Touches K (resume_thread_id env report) :=
  keeps_ite (touches_new_thread_id env "resume") (keeps_pure _)

theorem returns_resume_thread (env : Env) (report : Option EvaluationReport) :
    Returns (resume_thread_id env report) :=
  returns_ite (returns_new_thread_id env "resume") (returns_pure _)

theorem touches_clear_review {K : List Part} (env : Env) (hK : .reports ∈ K)
    (report : Option EvaluationReport) : Touches K (clear_review env report) := by
  unfold clear_review
  split
  · exact keeps_pure _
  · exact touches_persist_report env hK _

variable (hnew : ∀ w job, job.status = .queued → guard w job)
include hnew

theorem create_parse_job.spec {w : World} (hn : Named env w)
    (document_id trace_id tenant_id : String) :
    Meets (Step env guard) (create_parse_job env document_id trace_id tenant_id) w
      (OnReturn fun job_id w' => Creates w w' job_id) := by
  unfold create_parse_job
  refine on_return_saving (past (K := []) (touches_get_document _ _) (by simp)
    (fun document t hf => ?_) (fun _ _ _ => trivial)) (fun _ _ _ h hf => h.later hf)
  cases document with
  | none =>
    simp only [raise_api, meets_raise]
    trivial
  | some document =>
    have hjobs : t.store.jobs = w.store.jobs := hf.same .jobs (by simp)
    refine past_job_name (hn.frame hf (by simp) (by simp) (by simp)) fun hex t₁ hf₁ hid hfresh => ?_
    refine past_calm (touches_new_thread_id env "parse") (returns_new_thread_id env "parse")
      fun thread_id t₂ hf₂ => ?_
    have hf₃ := (hf.trans hf₁).trans hf₂
    refine past_new (w := w) (hf₃.same .jobs (by simp)) (hid.mono hf₂.draws) (hjobs ▸ hfresh) rfl
      (hnew _ _ rfl) (hn.frame hf₃ (by simp) (by simp) (by simp)) fun t₃ hopened _ => ?_
    refine past_calm (touches_new_manifest env _ _ _) (returns_new_manifest env _ _ _)
      fun manifest t₄ hf₄ => ?_
    refine past_calm (touches_persist_manifest _) (returns_write _) fun _ t₅ hf₅ => ?_
    refine past (K := [.documents, .chunks]) (touches_persist_document (by simp) (by simp) _)
      (by decide) (fun _ t₆ hf₆ => ?_) (fun _ _ _ => trivial)
    have hopened := ((hopened.later hf₄ (by simp) (by simp) (by simp)).later hf₅ (by simp) (by simp)
      (by simp)).later hf₆ (by simp) (by simp) (by simp)
    refine past_announce hopened rfl rfl fun event t₇ hcreated => ?_
    rw [meets_pure]
    exact ⟨_, rfl, hcreated⟩

theorem create_upload_job.spec {w : World} (hn : Named env w) (payload : UploadPayload)
    (has_file : Bool) :
    Meets (Step env guard) (create_upload_job env payload has_file) w
      (OnReturn fun _ w' => Announces w w') := by
  unfold create_upload_job
  refine on_return_saving ?_ (fun _ _ _ h hf => h.later hf)
  rw [meets_bind, meets_read, then_ok]
  split
  · rw [meets_pure]
    exact .of_same rfl
  · refine past_calm (touches_uuid4 env) (returns_uuid4 env) fun hex t₁ hf₁ => ?_
    refine past (K := []) (touches_put_upload env _ _ _) (by simp) (fun uri t₂ hf₂ => ?_)
      (fun _ _ _ => trivial)
    refine past (K := [.documents, .chunks]) (touches_persist_document (by simp) (by simp) _)
      (by decide) (fun _ t₃ hf₃ => ?_) (fun _ _ _ => trivial)
    refine past (K := [.documents, .chunks]) (touches_persist_chunks env (by simp) _ _ _)
      (by decide) (fun _ t₄ hf₄ => ?_) (fun _ _ _ => trivial)
    have hf : Frame [.documents, .chunks] w t₄ :=
      (((hf₁.trans hf₂).mono (by simp)).trans hf₃).trans hf₄
    refine (create_parse_job.spec hnew (hn.frame hf (by simp) (by simp) (by simp)) _ _ _).bind
      (fun job_id t₅ h => ?_) (fun _ _ _ => trivial)
    rw [meets_pure]
    exact Announces.from hf (by simp) (Creates.announces h)

theorem create_evaluation_job.spec {w : World} (hn : Named env w) (payload : EvaluationPayload) :
    Meets (Step env guard) (create_evaluation_job env payload) w
      (OnReturn fun ids w' => Creates w w' ids.2) := by
  unfold create_evaluation_job
  refine on_return_saving ?_ (fun _ _ _ h hf => h.later hf)
  refine past_calm (touches_uuid4 env) (returns_uuid4 env) fun evaluation_hex t₁ hf₁ => ?_
  have hjobs : t₁.store.jobs = w.store.jobs := hf₁.same .jobs (by simp)
  refine past_job_name (hn.frame hf₁ (by simp) (by simp) (by simp))
    fun job_hex t₂ hf₂ hid hfresh => ?_
  refine past_calm (touches_new_thread_id env "eval") (returns_new_thread_id env "eval")
    fun thread_id t₃ hf₃ => ?_
  refine past (K := [.tokens, .reports]) (touches_nodes env (by simp) (by simp) _) (by decide)
    (fun _ t₄ hf₄ => ?_) (fun _ _ _ => trivial)
  have hf : Frame [.tokens, .reports] w t₄ :=
    (((hf₁.trans hf₂).trans hf₃).mono (by simp)).trans hf₄
  refine past_new (w := w) (hf.same .jobs (by simp)) (hid.mono (hf₃.draws.trans hf₄.draws))
    (hjobs ▸ hfresh) rfl (hnew _ _ rfl) (hn.frame hf (by simp) (by simp) (by simp))
    fun t₅ hopened _ => ?_
  refine past_announce hopened rfl rfl fun event t₆ hcreated => ?_
  rw [meets_pure]
  exact ⟨_, rfl, hcreated⟩

theorem create_resume_job.spec {w : World} (hn : Named env w) (evaluation_id : String)
    (payload : ResumePayload) :
    Meets (Step env guard) (create_resume_job env evaluation_id payload) w
      (OnReturn fun job_id w' => Creates w w' job_id) := by
  unfold create_resume_job
  refine on_return_saving ?_ (fun _ _ _ h hf => h.later hf)
  refine past_job_name hn fun hex t₁ hf₁ hid hfresh => ?_
  rw [meets_bind, meets_read, then_ok]
  refine past_calm (touches_resume_thread env _) (returns_resume_thread env _)
    fun thread_id t₂ hf₂ => ?_
  have hf := hf₁.trans hf₂
  refine past_new (w := w) (hf.same .jobs (by simp)) (hid.mono hf₂.draws) hfresh rfl
    (hnew _ _ rfl) (hn.frame hf (by simp) (by simp) (by simp)) fun t₃ hopened _ => ?_
  refine past (K := [.reports]) (touches_clear_review env (by simp) _) (by decide)
    (fun _ t₄ hf₄ => ?_) (fun _ _ _ => trivial)
  refine past (K := []) (touches_audit env _ _ _) (by simp) (fun _ t₅ hf₅ => ?_)
    (fun _ _ _ => trivial)
  have hopened := (hopened.later hf₄ (by simp) (by simp) (by simp)).later hf₅ (by simp) (by simp)
    (by simp)
  refine past_announce hopened rfl rfl fun event t₆ hcreated => ?_
  rw [meets_pure]
  exact ⟨_, rfl, hcreated⟩

theorem execute_resume.spec {w : World} (hn : Named env w) (evaluation_id resume_token : String)
    (payload : ResumePayload) :
    Meets (Step env guard) (execute_resume env evaluation_id resume_token payload) w
      (OnReturn fun job_id w' => Creates w w' job_id) := by
  unfold execute_resume
  refine past (K := [.tokens]) (touches_consume_token env (by simp) _ _ _) (by decide)
    (fun consumed t hf => ?_) (fun _ _ _ => trivial)
  rw [meets_ite]
  refine ⟨fun _ => ?_, fun _ => ?_⟩
  · refine (create_resume_job.spec hnew (hn.frame hf (by simp) (by simp) (by simp)) _ _).post ?_
    rintro (e | job_id) w' h
    · trivial
    · exact Creates.from hf (by simp) h
  · simp only [raise_api, meets_raise]
    trivial

/-! ## The dead letter queue -/

omit hnew in
theorem stored_item {w : World} {dlq_id tenant_id : String} {item : DlqItem}
    (h : get_dlq_item w.store dlq_id tenant_id = some item) :
    w.store.dlq_items.get? item.dlq_id = some item := by
  unfold get_dlq_item at h
  have hitem := (Option.filter_eq_some_iff.1 h).1
  rw [w.store.dlq_items.key_of_get? hitem]
  exact hitem

omit hnew in
/-- Go past a change of an item that keeps its name, its job and its
tenant. -/
theorem past_item {w : World} {item item' : DlqItem} {f : DlqItem → Act β}
    {Q : Except PyErr β → World → Prop}
    (hitem : w.store.dlq_items.get? item.dlq_id = some item) (hid : item'.dlq_id = item.dlq_id)
    (hjob : item'.job_id = item.job_id) (htenant : item'.tenant_id = item.tenant_id)
    (hok : ∀ t, Frame [.dlq] w t → Meets (Step env guard) (f item') t Q) :
    Meets (Step env guard) (persist_dlq_item item' >>= f) w Q := by
  simp only [persist_dlq_item, update, meets_bind, meets_write, then_ok, meets_pure]
  refine ⟨⟨.same rfl, .closed item item' hitem hid hjob htenant rfl, .same rfl, Nat.le_refl _,
    .inl rfl⟩, hok _ ⟨fun p hp => ?_, Nat.le_refl _⟩⟩
  cases p <;> first | rfl | exact absurd List.mem_cons_self hp

/-- The tenant has an item of that name, and it is open. -/
def HasOpenItem (w : World) (dlq_id tenant_id : String) : Prop :=
  ∃ item, get_dlq_item w.store dlq_id tenant_id = some item ∧ item.status = "open"

/-- A requeue of an item that is not open leaves the world as it is. -/
theorem requeue_dlq_item.spec {w : World} (hn : Named env w) (dlq_id trace_id tenant_id : String) :
    Meets (Step env guard) (requeue_dlq_item env dlq_id trace_id tenant_id) w
      (fun _ w' => ¬ HasOpenItem w dlq_id tenant_id → w' = w) := by
  unfold requeue_dlq_item saving
  simp only [meets_bind, meets_read, then_ok]
  split
  · simp only [dlq_item_not_found, raise_api, meets_raise, then_error, implies_true]
  · rename_i item hitem
    rw [meets_ite]
    refine ⟨fun _ => ?_, fun hopen => ?_⟩
    · simp only [raise_api, meets_raise, then_error, implies_true]
    · have hquiet : ∀ w', ¬ HasOpenItem w dlq_id tenant_id → w' = w :=
        fun _ hno => absurd ⟨item, hitem, not_not.1 hopen⟩ hno
      refine past_job_name hn fun hex t₁ hf₁ hid hfresh => ?_
      refine past_calm (touches_new_thread_id env "requeue") (returns_new_thread_id env "requeue")
        fun thread_id t₂ hf₂ => ?_
      have hf := hf₁.trans hf₂
      refine past_new (w := w) (hf.same .jobs (by simp)) (hid.mono hf₂.draws) hfresh rfl
        (hnew _ _ rfl) (hn.frame hf (by simp) (by simp) (by simp)) fun t₃ _ hf₃ => ?_
      have hsame : t₃.store.dlq_items = w.store.dlq_items :=
        ((hf.mono (by simp)).trans hf₃).same .dlq (by simp)
      have hstored : t₃.store.dlq_items.get? item.dlq_id = some item := by
        rw [hsame]
        exact stored_item hitem
      refine past_item hstored rfl rfl rfl fun t₄ _ => ?_
      refine past (K := []) (touches_audit env _ _ _) (by simp) (fun _ t₅ _ => ?_)
        (fun _ t₅ _ => hquiet t₅)
      rw [meets_pure, then_ok]
      refine past (K := []) (touches_save_state env) (by simp) (fun _ t₆ _ => ?_)
        (fun _ t₆ _ => hquiet t₆)
      rw [meets_pure]
      exact hquiet t₆

omit hnew in
theorem discard_dlq_item.spec {w : World}
    (dlq_id reason reviewer_id reviewer_id_2 tenant_id trace_id : String) :
    Meets (Step env guard)
      (discard_dlq_item env dlq_id reason reviewer_id reviewer_id_2 tenant_id trace_id) w
      (fun _ w' => Frame [.dlq] w w') := by
  unfold discard_dlq_item
  refine meets_saving ?_ (fun _ _ _ hf hf' => hf.trans (hf'.mono (by simp)))
  rw [meets_bind, meets_read, then_ok]
  split
  · simp only [dlq_item_not_found, raise_api, meets_raise]
    exact Frame.refl w
  · rename_i item hitem
    simp only [approval_required, raise_api, meets_ite, meets_raise]
    refine ⟨fun _ => Frame.refl w, fun _ => ⟨fun _ => Frame.refl w, fun _ => ?_⟩⟩
    refine past_item (stored_item hitem) rfl rfl rfl fun t hf => ?_
    exact (meets_touches (K := []) (touches_audit env _ _ _) (by simp)).post fun r t' hf' =>
      hf.trans (hf'.mono (by simp))

/-! ## The cancel -/

/-- The record of a job that an operator cancelled. -/
def cancelled_job (job : Job) : Job :=
  { job with
    status := .failed
    error_code := some "JOB_CANCELLED"
    last_error := some cancelled }

/-- The write of a cancel: a stored job that is not at its end. -/
def CancelStep (job_id : String) (w w' : World) : Prop :=
  ∃ job, job.job_id = job_id ∧ Stored w job ∧ job.status ≠ .succeeded ∧ job.status ≠ .failed ∧
    w' = { w with store := { w.store with jobs := w.store.jobs.put (cancelled_job job) } }

/-- One write of an operation. Only a cancel writes past the transitions. -/
inductive OpStep (env : Env) (guard : World → Job → Prop) (op : Op) (w w' : World) : Prop where
  | step (h : Step env guard w w')
  | cancelled (job_id tenant_id : String) (hop : op = .cancel_job job_id tenant_id)
      (h : CancelStep job_id w w')

omit hnew in
theorem cancel_job.spec (w : World) (job_id tenant_id : String) :
    Meets (fun a b => Step env guard a b ∨ CancelStep job_id a b)
      (cancel_job env job_id tenant_id) w
      (fun r w' => (∃ e, r = .error e ∧ w' = w) ∨
        ∃ job, job.job_id = job_id ∧ Stored w job ∧ Put w w' (cancelled_job job)) := by
  unfold cancel_job saving
  rw [meets_bind]
  refine (require_job.spec w job_id (some tenant_id)).bind ?_ ?_
  · rintro job t ⟨rfl, hjob⟩
    obtain ⟨hid, hv⟩ := (hjob job).1 rfl
    rw [meets_ite]
    refine ⟨fun _ => ?_, fun hopen => ?_⟩
    · rw [raise_api, meets_raise, then_error]
      exact .inl ⟨_, rfl, rfl⟩
    · rw [not_or] at hopen
      rw [update, meets_write, then_ok]
      have hput : Put t
          { t with store := { t.store with jobs := t.store.jobs.put (cancelled_job job) } }
          (cancelled_job job) := by
        refine ⟨rfl, fun p hp => ?_, Nat.le_refl _⟩
        cases p <;> first | rfl | exact absurd List.mem_cons_self hp
      refine ⟨.inr ⟨job, hid, hv.stored, hopen.1, hopen.2, rfl⟩, ?_⟩
      refine ((save_state.spec _).mono (fun _ _ h => .inl h) (fun _ _ h => h)).bind ?_
        (by rintro e t' ⟨he, -⟩; cases he)
      rintro _ t' ⟨-, hf⟩
      rw [meets_pure]
      exact .inr ⟨job, hid, hv.stored, hput.saved hf⟩
  · rintro e t ⟨rfl, -⟩
    exact .inl ⟨e, rfl, rfl⟩

/-! ## Queued jobs -/

/-- The guard of a program that makes no job. -/
def noQueued : World → Job → Prop := fun _ job => job.status ≠ .queued

/-- Each queued job was queued before, as the same job. -/
def QueuedBefore (w w' : World) : Prop :=
  ∀ id job', w'.store.jobs.get? id = some job' → job'.status = .queued →
    ∃ job, w.store.jobs.get? id = some job ∧ job.status = .queued ∧ SameJob job job'

omit hnew in
theorem QueuedBefore.refl (w : World) : QueuedBefore w w :=
  fun _ job hjob hqueued => ⟨job, hjob, hqueued, SameJob.refl job⟩

omit hnew in
theorem QueuedBefore.trans {a b c : World} (h : QueuedBefore a b) (h' : QueuedBefore b c) :
    QueuedBefore a c := by
  intro id job'' hjob hqueued
  obtain ⟨job', hjob', hqueued', hsame'⟩ := h' id job'' hjob hqueued
  obtain ⟨job, hjob, hqueued, hsame⟩ := h id job' hjob' hqueued'
  exact ⟨job, hjob, hqueued, hsame.trans hsame'⟩

omit hnew in
theorem queued_before_put {w w' : World} {job job' : Job} (hstored : Stored w job)
    (hsame : SameJob job job') (hjobs : w'.store.jobs = w.store.jobs.put job')
    (hqueued : job'.status = .queued → job.status = .queued) : QueuedBefore w w' := by
  intro id found hfound hq
  rw [hjobs, Table.get?_put] at hfound
  split at hfound
  · rename_i hid
    cases hfound
    rw [hid, hsame.job_id]
    exact ⟨job, hstored, hqueued hq, hsame⟩
  · exact ⟨found, hfound, hq, SameJob.refl found⟩

omit hnew in
theorem queued_before_step {w w' : World} (h : Step env noQueued w w') : QueuedBefore w w' := by
  cases h.jobs with
  | same hjobs =>
    intro id job hjob hqueued
    exact ⟨job, hjobs ▸ hjob, hqueued, SameJob.refl job⟩
  | created job hid hnone hqueued hguard hjobs => exact absurd hqueued hguard
  | noted job job' hjob hsame hstatus hjobs =>
    exact queued_before_put hjob hsame hjobs (fun hq => hstatus ▸ hq)
  | moved job job' hjob hsame hedge hguard hjobs =>
    exact queued_before_put hjob hsame hjobs (fun hq => absurd hq hguard)

omit hnew in
theorem queued_before_steps {w : World} {written : List World}
    (h : Steps (Step env noQueued) w written) : QueuedBefore w (lastState w written) :=
  (h.mono fun _ _ hstep => queued_before_step hstep).last QueuedBefore.refl
    (fun _ _ _ => QueuedBefore.trans)

omit hnew in
theorem noQueued_free : FreeMoves noQueued := fun _ _ _ h => h

/-! ## Runs and the rollback -/

omit hnew in
theorem default_never_fails {retry_count : Nat} : ¬ Fails env RunFlags.default retry_count := by
  rintro (h | h)
  · exact absurd h (by decide)
  · exact absurd h.1 (by decide)

omit hnew in
/-- A run makes no job. -/
theorem run_job_once.queued {w : World} (hn : Named env w) (job_id tenant_id : String)
    (flags : RunFlags) :
    QueuedBefore w ((run_job_once env job_id tenant_id flags).final w) := by
  have h : Meets (Step env noQueued) (run_job_once env job_id tenant_id flags) w _ :=
    run_job_once.spec noQueued_free hn
      fun _ _ _ _ _ t job' _ _ hstatus => (by simp [noQueued, hstatus])
  exact queued_before_steps h.1

omit hnew in
/-- The new job of a rollback is run at once, and a run that returns leaves
no job in the queue. -/
theorem queued_before_run {w t t' : World} {job job' : Job} (hopened : Opened env w t job)
    (hrun : QueuedBefore t t') (hid : job'.job_id = job.job_id) (hstored : Stored t' job')
    (hdone : job'.status ≠ .queued) : QueuedBefore w t' := by
  intro id found hfound hqueued
  obtain ⟨old, hold, hq, hsame⟩ := hrun id found hfound hqueued
  rw [hopened.jobs, Table.get?_put] at hold
  split at hold
  · rename_i heq
    unfold Stored at hstored
    rw [hid, ← heq, hfound] at hstored
    cases hstored
    exact absurd hqueued hdone
  · exact ⟨old, hold, hq, hsame⟩

theorem execute_rollback.spec {w : World} (hfree : FreeMoves guard) (hn : Named env w)
    (release_id tenant_id trace_id : String) (trigger_gate : Option String) :
    Meets (Step env guard) (execute_rollback env release_id tenant_id trace_id trigger_gate) w
      (OnReturn fun _ w' => QueuedBefore w w') := by
  have hlater : ∀ t t', QueuedBefore w t → Frame [] t t' → QueuedBefore w t' := by
    intro t t' h hf id job hjob
    have hsame : t'.store.jobs = t.store.jobs := hf.same .jobs (by simp)
    exact h id job (hsame ▸ hjob)
  unfold execute_rollback
  refine on_return_saving ?_ (fun _ => hlater)
  cases trigger_gate with
  | none =>
    rw [meets_pure]
    exact QueuedBefore.refl w
  | some gate =>
    refine past (K := []) (touches_audit env _ _ _) (by simp) (fun _ t₁ hf₁ => ?_)
      (fun _ _ _ => trivial)
    have hjobs : t₁.store.jobs = w.store.jobs := hf₁.same .jobs (by simp)
    refine past_job_name (hn.frame hf₁ (by simp) (by simp) (by simp))
      fun hex t₂ hf₂ hid hfresh => ?_
    refine past_calm (touches_new_thread_id env "replay") (returns_new_thread_id env "replay")
      fun thread_id t₃ hf₃ => ?_
    have hf := (hf₁.trans hf₂).trans hf₃
    refine past_new (w := w) (hf.same .jobs (by simp)) (hid.mono hf₃.draws) (hjobs ▸ hfresh) rfl
      (hnew _ _ rfl) (hn.frame hf (by simp) (by simp) (by simp)) fun t₄ hopened _ => ?_
    have hrun : Meets (Step env guard)
        (run_job_once env ("job_" ++ hex) tenant_id RunFlags.default) t₄ _ :=
      run_job_once.spec hfree hopened.named
        fun _ _ _ _ hfails => absurd hfails default_never_fails
    have hqueued : Meets (Step env guard) _ t₄ (fun _ t => QueuedBefore t₄ t) :=
      ⟨hrun.1, run_job_once.queued hopened.named ("job_" ++ hex) tenant_id RunFlags.default⟩
    refine (hrun.and hqueued).bind ?_ (fun _ _ _ => trivial)
    rintro result t₅ ⟨(⟨job, hjob, hv, -, job', hb, hstatus, hfinal⟩ | ⟨-, ⟨e, he⟩, -⟩), hq⟩
    · have hid' : job'.job_id = "job_" ++ hex := hb.same.job_id.trans hjob
      have hdone : job'.status ≠ .queued := by
        rw [hstatus]
        intro heq
        simp [heq, final_statuses] at hfinal
      have hkept := queued_before_run hopened hq hid' hb.stored hdone
      exact (meets_touches (K := []) (touches_audit env _ _ _) (by simp)).post
        (fun r t₆ hf₆ => by
          cases r with
          | error e => trivial
          | ok _ => exact hlater _ _ hkept hf₆)
    · cases he

/-! ## One operation -/

/-- The moves to `dlq_recorded` of an operation are permitted. -/
def Permits (env : Env) (guard : World → Job → Prop) (w : World) : Op → Prop
  | .run_job_once job_id tenant_id flags => ∀ job, job.job_id = job_id →
      Visible w job (some tenant_id) → Startable job.status →
        Fails env flags job.retry_count → DlqGuard guard w job
  | .transition_job_status job_id status tenant_id => status = .dlq_recorded →
      ∀ job, job.job_id = job_id → Visible w job tenant_id →
        status ∈ ALLOWED_TRANSITIONS job.status → guard w (moved job status)
  | _ => True

omit hnew in
theorem steps_quiet {m : Act α} {w : World} {R : World → World → Prop}
    (h : Steps R w (m.written w)) : Steps R w ((quiet m).written w) := by
  have hm : Meets R m w (fun _ _ => True) := ⟨h, trivial⟩
  exact (hm.bind (fun _ _ _ => meets_pure.2 trivial) (fun _ _ _ => trivial) :
    Meets R (quiet m) w (fun _ _ => True)).1

omit hnew in
theorem not_moved_to_queued {status : JobStatus} :
    JobStatus.queued ∉ ALLOWED_TRANSITIONS status := by
  cases status <;> simp [ALLOWED_TRANSITIONS]

/-- Each write of an operation is a step, but for the write of a cancel. -/
theorem steps_of_op {w : World} (hfree : FreeMoves guard) (hn : Named env w) (op : Op)
    (hp : Permits env guard w op) : Steps (OpStep env guard op) w ((op.act env).written w) := by
  have hstep : ∀ a b, Step env guard a b → OpStep env guard op a b := fun _ _ h => .step h
  cases op with
  | upload payload has_file =>
    exact (steps_quiet (create_upload_job.spec hnew hn payload has_file).1).mono hstep
  | create_parse_job document_id trace_id tenant_id =>
    exact (steps_quiet (create_parse_job.spec hnew hn _ _ _).1).mono hstep
  | create_evaluation_job payload =>
    exact (steps_quiet (create_evaluation_job.spec hnew hn payload).1).mono hstep
  | consume_resume_token evaluation_id resume_token tenant_id =>
    exact (steps_quiet (keeps_step_of_touches ((touches_consume_token (K := [.tokens]) env (by simp)
      _ _ _).widen (by decide)) w)).mono hstep
  | create_resume_job evaluation_id payload =>
    exact (steps_quiet (create_resume_job.spec hnew hn evaluation_id payload).1).mono hstep
  | resume evaluation_id resume_token payload =>
    have hspec := execute_resume.spec hnew hn evaluation_id resume_token payload
    exact (steps_quiet hspec.1).mono hstep
  | run_job_once job_id tenant_id flags =>
    exact (steps_quiet (run_job_once.spec hfree hn hp).1).mono hstep
  | transition_job_status job_id new_status tenant_id =>
    refine (steps_quiet (transition_job_status.spec ?_).1).mono hstep
    intro job hv hid hedge
    by_cases hrecorded : new_status = .dlq_recorded
    · exact hp hrecorded job hid hv hedge
    · refine hfree _ _ hrecorded fun heq => ?_
      have heq : new_status = .queued := heq
      rw [heq] at hedge
      exact not_moved_to_queued hedge
  | cancel_job job_id tenant_id =>
    have hcancel : Meets (fun a b => Step env guard a b ∨ CancelStep job_id a b) _ w _ :=
      cancel_job.spec w job_id tenant_id
    refine hcancel.1.mono ?_
    rintro a b (h | h)
    · exact .step h
    · exact .cancelled job_id tenant_id rfl h
  | seed_dlq_item job_id error_class error_code tenant_id =>
    exact (steps_quiet (seed_dlq_item.spec hn _ _ _ _).1).mono hstep
  | requeue_dlq_item dlq_id trace_id tenant_id =>
    exact (steps_quiet (requeue_dlq_item.spec hnew hn _ _ _).1).mono hstep
  | discard_dlq_item dlq_id reason reviewer_id reviewer_id_2 tenant_id trace_id =>
    exact (discard_dlq_item.spec _ _ _ _ _ _).1.mono hstep
  | execute_rollback release_id tenant_id trace_id trigger_gate =>
    exact (execute_rollback.spec hnew hfree hn _ _ _ _).1.mono hstep

omit hnew in
theorem named_cancel {job_id : String} {w w' : World} (hn : Named env w)
    (h : CancelStep job_id w w') : Named env w' := by
  obtain ⟨job, -, hstored, -, -, rfl⟩ := h
  exact ⟨named_of_put hn.jobs (hn.jobs _ _ hstored), hn.dlq, hn.outbox⟩

omit hnew in
theorem named_op_step {op : Op} {w w' : World} (hn : Named env w)
    (h : OpStep env guard op w w') : Named env w' := by
  cases h with
  | step h => exact named_step hn h
  | cancelled job_id tenant_id hop h => exact named_cancel hn h

/-- The names stay fresh over an operation. -/
theorem named_perform {w : World} (hfree : FreeMoves guard) (hn : Named env w) (op : Op)
    (hp : Permits env guard w op) : Named env (perform env w op) :=
  (steps_of_op hnew hfree hn op hp).invariant_last (fun _ _ h hn => named_op_step hn h) hn

end bid_evaluation.op_steps
