-- Whose report is whose. Over any run, each evaluation job has a report under
-- the name of its evaluation, and that report belongs to the tenant of the
-- job. A thread that waits at an interrupt waits for such a report too.
import BidEvaluation.AgreementLaws
import BidEvaluation.CaseSteps
import BidEvaluation.RequeueLaws

open dict_lib stepwise bid_evaluation.values bid_evaluation.core bid_evaluation.store_ops
  bid_evaluation.store_workflow bid_evaluation.store_admin bid_evaluation.store_parse
  bid_evaluation.store_eval bid_evaluation.evaluation_nodes bid_evaluation.langgraph_runtime
  bid_evaluation.job_run bid_evaluation.operations bid_evaluation.frames
  bid_evaluation.job_steps bid_evaluation.run_steps bid_evaluation.op_steps
  bid_evaluation.job_laws bid_evaluation.endings bid_evaluation.review_steps
  bid_evaluation.resume_laws bid_evaluation.announce_laws bid_evaluation.agreement_steps
  bid_evaluation.agreement_laws
  bid_evaluation.requeue_laws bid_evaluation.case_steps

namespace bid_evaluation.report_owners

variable {env : Env} {w w' : World} {evaluation_id tenant_id : String}

/-! ## Owned reports -/

/-- The evaluation has a report, which belongs to the tenant. -/
def HasReport (w : World) (evaluation_id tenant_id : String) : Prop :=
  ∃ report, w.store.evaluation_reports.get? evaluation_id = some report ∧
    report.tenant_id = tenant_id

/-- The case of a state that waits has its report. -/
def WaitsOn (w : World) (state : EvaluationState) : Prop :=
  ∃ evaluation_id tenant_id, OfCase evaluation_id tenant_id state ∧
    HasReport w evaluation_id tenant_id

/-- Each report keeps its owner and none is new, and a state that newly waits
has its report. -/
structure OwnersKept (w w' : World) : Prop where
  kept : ∀ evaluation_id tenant_id, HasReport w evaluation_id tenant_id →
    HasReport w' evaluation_id tenant_id
  known : ∀ evaluation_id, w.store.evaluation_reports.get? evaluation_id = none →
    w'.store.evaluation_reports.get? evaluation_id = none
  waiting : ∀ thread_id state, w'.interrupted thread_id = some state →
    w.interrupted thread_id = some state ∨ WaitsOn w' state

theorem OwnersKept.trans {a b c : World} (h : OwnersKept a b) (h' : OwnersKept b c) :
    OwnersKept a c := by
  refine ⟨fun e t hr => h'.kept e t (h.kept e t hr), fun e hr => h'.known e (h.known e hr), ?_⟩
  intro thread_id state hs
  rcases h'.waiting thread_id state hs with hold | hnew
  · rcases h.waiting thread_id state hold with hold | ⟨e, t, hcase, hreport⟩
    · exact .inl hold
    · exact .inr ⟨e, t, hcase, h'.kept e t hreport⟩
  · exact .inr hnew

theorem owners_of_frame {K : List Part} (hf : Frame K w w') (hr : .reports ∉ K)
    (hi : .interrupted ∉ K) : OwnersKept w w' := by
  have hreports : w'.store.evaluation_reports = w.store.evaluation_reports := hf.same .reports hr
  have hwaiting : w'.interrupted = w.interrupted := hf.same .interrupted hi
  refine ⟨fun e t h => ?_, fun e h => hreports ▸ h, fun thread_id state hs => .inl (hwaiting ▸ hs)⟩
  unfold HasReport
  rw [hreports]
  exact h

/-- One write on a case that has its report. -/
theorem owners_of_write (h : CaseStep evaluation_id tenant_id w w')
    (hw : HasReport w evaluation_id tenant_id) : OwnersKept w w' := by
  obtain ⟨found, hfound, howner⟩ := hw
  have hkept : ∀ e t, HasReport w e t → HasReport w' e t := by
    rintro e t ⟨report, hreport, rfl⟩
    unfold HasReport
    rcases h.reports with hsame | ⟨new, hid, hnew, hput⟩
    · rw [hsame]
      exact ⟨report, hreport, rfl⟩
    · rw [hput, Table.get?_put]
      split
      · rename_i heq
        rw [heq, hid, hfound] at hreport
        cases hreport
        exact ⟨new, rfl, hnew.trans howner.symm⟩
      · exact ⟨report, hreport, rfl⟩
  refine ⟨hkept, fun e hnone => ?_, fun thread_id state hs => ?_⟩
  · rcases h.reports with hsame | ⟨new, hid, -, hput⟩
    · rw [hsame]
      exact hnone
    · rw [hput, Table.get?_put, if_neg]
      · exact hnone
      · rintro rfl
        rw [hid, hfound] at hnone
        cases hnone
  · exact (h.waiting thread_id state hs).imp_right fun hcase =>
      ⟨evaluation_id, tenant_id, hcase, hkept _ _ ⟨found, hfound, howner⟩⟩

/-- A program on a case that has its report keeps all owners. -/
theorem owners_of_case {m : Act α} (h : OnCase evaluation_id tenant_id m)
    (hw : HasReport w evaluation_id tenant_id) : Meets AnyStep m w (fun _ t => OwnersKept w t) := by
  refine ⟨keeps_true m w, ?_⟩
  have hrefl : OwnersKept w w :=
    owners_of_frame (K := []) (Frame.refl w) (by simp) (by simp)
  refine (h w).invariant_last (I := fun t => OwnersKept w t) ?_ hrefl
  intro a b hstep ha
  exact ha.trans (owners_of_write hstep (ha.kept _ _ hw))

/-! ## The jobs -/

/-- Each evaluation job was there before, with the same work. -/
def NoNewEvaluation (w w' : World) : Prop :=
  ∀ id job, w'.store.jobs.get? id = some job → job.job_type = .evaluation →
    ∃ old, w.store.jobs.get? id = some old ∧ SameWork old job

theorem no_new_of_same (h : w'.store.jobs = w.store.jobs) : NoNewEvaluation w w' :=
  fun _ job hjob _ => ⟨job, h ▸ hjob, rfl, rfl, rfl⟩

theorem NoNewEvaluation.trans {a b c : World} (h : NoNewEvaluation a b)
    (h' : NoNewEvaluation b c) : NoNewEvaluation a c := by
  intro id job hjob htype
  obtain ⟨mid, hmid, hsame'⟩ := h' id job hjob htype
  obtain ⟨old, hold, hsame⟩ := h id mid hmid (hsame'.job_type.symm.trans htype)
  exact ⟨old, hold, hsame'.tenant_id.trans hsame.tenant_id, hsame'.job_type.trans hsame.job_type,
    hsame'.resource_id.trans hsame.resource_id⟩

/-- A job was written that is stored with the same work, or is no evaluation. -/
theorem no_new_of_put {job : Job} (hjobs : w'.store.jobs = w.store.jobs.put job)
    (hjob : job.job_type = .evaluation → ∃ old, Stored w old ∧ old.job_id = job.job_id ∧
      SameWork old job) : NoNewEvaluation w w' := by
  intro id found hfound htype
  rw [hjobs, Table.get?_put] at hfound
  split at hfound
  · rename_i heq
    cases hfound
    obtain ⟨old, hold, hid, hsame⟩ := hjob htype
    rw [heq, ← hid]
    exact ⟨old, hold, hsame⟩
  · exact ⟨found, hfound, rfl, rfl, rfl⟩

theorem no_new_of_step (h : Step env noQueued w w') : NoNewEvaluation w w' := by
  cases h.jobs with
  | same hsame => exact no_new_of_same hsame
  | created job hid hnew hqueued hguard hjobs => exact absurd hqueued hguard
  | noted job job' hjob hsame hstatus hjobs =>
    exact no_new_of_put hjobs fun _ => ⟨job, hjob, hsame.job_id.symm,
      hsame.tenant_id, hsame.job_type, hsame.resource_id⟩
  | moved job job' hjob hsame hedge hguard hjobs =>
    exact no_new_of_put hjobs fun _ => ⟨job, hjob, hsame.job_id.symm,
      hsame.tenant_id, hsame.job_type, hsame.resource_id⟩

theorem no_new_of_steps {written : List World} (h : Steps (Step env noQueued) w written) :
    NoNewEvaluation w (lastState w written) :=
  (h.mono fun _ _ hstep => no_new_of_step hstep).last (fun _ => no_new_of_same rfl)
    (fun _ _ _ => NoNewEvaluation.trans)

/-! ## A run -/

/-- Each waiting state has its report. -/
def AllWait (w : World) : Prop :=
  ∀ thread_id state, w.interrupted thread_id = some state → WaitsOn w state

/-- Each evaluation job has a report, which belongs to the tenant of the job. -/
def JobsHaveReports (w : World) : Prop :=
  ∀ id job, w.store.jobs.get? id = some job → job.job_type = .evaluation →
    HasReport w job.resource_id job.tenant_id

/-- What the operations keep. -/
structure Owned (env : Env) (w : World) : Prop where
  named : Named env w
  reports : ∀ id report, w.store.evaluation_reports.get? id = some report →
    DrawnBefore env "ev_" w.draws id
  waiting : AllWait w
  jobs : JobsHaveReports w

theorem AllWait.frame {K : List Part} (h : AllWait w) (hf : Frame K w w') (hr : .reports ∉ K)
    (hi : .interrupted ∉ K) : AllWait w' := by
  have hwaiting : w'.interrupted = w.interrupted := hf.same .interrupted hi
  intro thread_id state hs
  rw [hwaiting] at hs
  obtain ⟨e, t, hcase, hreport⟩ := h thread_id state hs
  exact ⟨e, t, hcase, (owners_of_frame hf hr hi).kept _ _ hreport⟩

/-- Go past a program that changes neither reports nor waiting threads. -/
theorem past_owners {K : List Part} {m : Act α} {f : α → Act β} (h : Touches K m)
    (hr : .reports ∉ K) (hi : .interrupted ∉ K)
    (hf : ∀ a t, Frame K w t → Meets AnyStep (f a) t (fun _ t' => OwnersKept t t')) :
    Meets AnyStep (m >>= f) w (fun _ t' => OwnersKept w t') :=
  past_parts h
    (fun a t hframe => (hf a t hframe).post fun _ _ h' => (owners_of_frame hframe hr hi).trans h')
    (fun _ _ hframe => owners_of_frame hframe hr hi)

theorem owners_of_touches {K : List Part} {m : Act α} (h : Touches K m) (hr : .reports ∉ K)
    (hi : .interrupted ∉ K) (w : World) : Meets AnyStep m w (fun _ t => OwnersKept w t) :=
  (ends_touches h w).post fun _ _ hf => owners_of_frame hf hr hi

/-- What comes after a program that keeps the owners, if it keeps them too. -/
theorem OwnersKept.after {m : Act α} {f : α → Act β}
    (h : Meets AnyStep m w (fun _ t => OwnersKept w t))
    (hf : ∀ a t, Meets AnyStep (f a) t (fun _ t' => OwnersKept t t')) :
    Meets AnyStep (m >>= f) w (fun _ t' => OwnersKept w t') :=
  h.bind (fun a t hkept => (hf a t).post fun _ _ h' => hkept.trans h') (fun _ _ hkept => hkept)

theorem OwnersKept.caught {m : Act α} {handler : PyErr → Act α}
    (h : Meets AnyStep m w (fun _ t => OwnersKept w t))
    (hh : ∀ e t, Meets AnyStep (handler e) t (fun _ t' => OwnersKept t t')) :
    Meets AnyStep (catching m handler) w (fun _ t' => OwnersKept w t') :=
  h.catching (fun _ _ hkept => hkept)
    (fun e t hkept => (hh e t).post fun _ _ h' => hkept.trans h')

theorem invoke_resume.owners (h : AllWait w) (id : WorkflowIdentity) :
    Meets AnyStep (invoke_resume env id) w (fun _ t => OwnersKept w t) := by
  unfold invoke_resume
  rw [meets_bind, meets_read, then_ok]
  rcases hwaiting : w.interrupted id.thread_id with _ | state
  · exact owners_of_touches (K := []) (touches_graph_fault env) (by simp) (by simp) w
  · obtain ⟨e, t, hcase, hreport⟩ := h id.thread_id state hwaiting
    exact owners_of_case (on_case_run_nodes env id true after_interrupt hcase) hreport

theorem run_resume_job.owners (h : AllWait w) (job : Job) (tenant_id : String) :
    Meets AnyStep (run_resume_job env job tenant_id) w (fun _ t => OwnersKept w t) := by
  have hfinish : ∀ thread_id t, Meets AnyStep
      (finish env job .succeeded tenant_id thread_id none) t (fun _ t' => OwnersKept t t') :=
    fun thread_id => owners_of_touches (K := [.jobs]) (touches_finish env (by simp) _ _ _ _ _)
      (by simp) (by simp)
  have hcompat : ∀ thread_id t, Meets AnyStep (run_resume_compat env job tenant_id thread_id) t
      (fun _ t' => OwnersKept t t') := fun thread_id t =>
    past_owners (K := []) (touches_checkpoints env _ _ _ _) (by simp) (by simp)
      fun _ t' _ => hfinish thread_id t'
  have hgraph : ∀ t, AllWait t → Meets AnyStep (run_resume_graph env job tenant_id) t
      (fun _ t' => OwnersKept t t') := by
    intro t ht
    refine past_owners (K := []) (touches_thread_of env job "resume") (by simp) (by simp)
      fun thread_id t' hf => ?_
    have hinvoke : Meets AnyStep (invoke_resume env ⟨thread_id, job.job_id, tenant_id⟩) t' _ :=
      invoke_resume.owners (ht.frame hf (by simp) (by simp)) _
    refine OwnersKept.after (OwnersKept.caught hinvoke fun e u => ?_) fun _ => hfinish thread_id
    refine owners_of_touches (K := []) ?_ (by simp) (by simp) u
    split <;> exact keeps_raise _
  unfold run_resume_job
  refine OwnersKept.after (past_owners (K := []) (touches_thread_of env job "resume") (by simp)
    (by simp) fun thread_id t hf => ?_) fun result t => ?_
  · refine past_owners (K := []) (keeps_lift _) (by simp) (by simp) fun mode t' hf' => ?_
    cases mode with
    | compat => exact hcompat thread_id t'
    | langgraph =>
      refine OwnersKept.caught (hgraph t' ((h.frame hf (by simp) (by simp)).frame hf' (by simp)
        (by simp))) fun e u => ?_
      rw [meets_ite]
      refine ⟨fun _ => ?_, fun _ => hcompat thread_id u⟩
      exact owners_of_touches (K := []) (keeps_raise _) (by simp) (by simp) u
  · exact owners_of_touches (K := []) (keeps_bind (touches_checkpoint env _ _ _ _ _ _) fun _ =>
      keeps_pure _) (by simp) (by simp) t

/-- The parts that a run changes which is no workflow. -/
def plainParts : List Part := [.jobs, .dlq, .documents, .chunks, .index]

theorem touches_plain_run (env : Env) (job : Job) (tenant_id : String) :
    Touches plainParts (succeed_job env job tenant_id) := by
  refine keeps_bind (keeps_bind (touches_transition env (by decide) _ _ _) fun _ =>
    touches_persist_job (by decide) _) fun succeeded => ?_
  exact keeps_bind (touches_succeed_parse env (by decide) (by decide) (by decide) _ _) fun _ =>
    keeps_bind (touches_checkpoint env _ _ _ _ _ _) fun _ => keeps_pure _

theorem touches_failed_run (env : Env) (job : Job) (tenant_id : String)
    (force_error_code : Option String) :
    Touches plainParts (fail_job env job tenant_id force_error_code) := by
  have hletter : ∀ code, Touches plainParts (dead_letter env job tenant_id code) := fun code =>
    (touches_dead_letter env job tenant_id code).widen (by decide)
  exact keeps_bind (hletter _) fun (item, failed) =>
    keeps_bind (touches_fail_parse env (by decide) (by decide) _ _ _) fun _ =>
      keeps_bind (touches_checkpoint env _ _ _ _ _ _) fun _ => keeps_pure _

theorem touches_retried_run (env : Env) (job : Job) (tenant_id error_code : String) :
    Touches plainParts (retry_job env job tenant_id error_code) := by
  refine keeps_bind (touches_transition env (by decide) _ _ _) fun retried => ?_
  refine keeps_bind (touches_utcnow env) fun now => keeps_bind (touches_utcnow env) fun at_ => ?_
  refine keeps_bind (touches_persist_job (by decide) _) fun retried => ?_
  exact keeps_bind (touches_change_parse_manifest (fun _ => keeps_pure _) _ _) fun _ =>
    keeps_bind (touches_checkpoint env _ _ _ _ _ _) fun _ => keeps_pure _

theorem run_started.owners {job : Job} (hwait : AllWait w)
    (hreport : job.job_type = .evaluation → HasReport w job.resource_id tenant_id)
    (flags : RunFlags) :
    Meets AnyStep (run_started env job tenant_id flags) w (fun _ t => OwnersKept w t) := by
  have hplain : ∀ {m : Act RunResult}, Touches plainParts m →
      Meets AnyStep m w (fun _ t => OwnersKept w t) := fun h =>
    owners_of_touches h (by decide) (by decide) w
  unfold run_started
  rw [meets_ite]
  refine ⟨fun _ => hplain (touches_failed_run env _ _ _), fun _ => ?_⟩
  rw [meets_ite]
  refine ⟨fun _ => ?_, fun _ => ?_⟩
  · exact hplain (keeps_ite (touches_retried_run env _ _ _) (touches_failed_run env _ _ _))
  · unfold run_by_type
    split
    · rename_i htype
      exact owners_of_case (on_case_evaluation env job tenant_id) (hreport htype)
    · exact run_resume_job.owners hwait job tenant_id
    · exact hplain (touches_plain_run env _ _)

/-- A run of any job, by any tenant, keeps the owners. -/
theorem run_job_once.owners (hwait : AllWait w) (hjobs : JobsHaveReports w)
    (job_id tenant_id : String) (flags : RunFlags) :
    Meets AnyStep (run_job_once env job_id tenant_id flags) w (fun _ t => OwnersKept w t) := by
  have hbegin : Meets (Step env anyJob) (begin_run env job_id tenant_id) w _ :=
    begin_run.spec any_free w job_id tenant_id
  unfold run_job_once
  refine any_saving ((meets_any hbegin).bind ?_ ?_) ?_
  · rintro job t ⟨hf, found, -, hv, -, hb, -⟩
    have hkept : OwnersKept w t := owners_of_frame hf (by simp) (by simp)
    refine (run_started.owners (hwait.frame hf (by simp) (by simp)) ?_ flags).post
      fun _ _ h' => hkept.trans h'
    intro htype
    rw [hb.same.resource_id, ← hv.scope tenant_id rfl]
    exact hkept.kept _ _ (hjobs _ found hv.stored (hb.same.job_type.symm.trans htype))
  · exact fun e t hends => owners_of_frame hends.1 (by simp) (by simp)
  · exact fun _ t t' hkept hf => hkept.trans (owners_of_frame hf (by simp) (by simp))

theorem run_job_once.makes_none (hn : Named env w) (job_id tenant_id : String)
    (flags : RunFlags) :
    NoNewEvaluation w ((run_job_once env job_id tenant_id flags).final w) := by
  have h : Meets (Step env noQueued) (run_job_once env job_id tenant_id flags) w _ :=
    run_job_once.spec noQueued_free hn
      fun _ _ _ _ _ t job' _ _ hstatus => (by simp [noQueued, hstatus])
  exact no_new_of_steps h.1

/-! ## The operations -/

/-- The owners are kept, and no evaluation job is new. -/
structure Settled (w w' : World) : Prop where
  owners : OwnersKept w w'
  jobs : NoNewEvaluation w w'

theorem Settled.trans {a b c : World} (h : Settled a b) (h' : Settled b c) : Settled a c :=
  ⟨h.owners.trans h'.owners, h.jobs.trans h'.jobs⟩

theorem settled_of_frame {K : List Part} (hf : Frame K w w') (hj : .jobs ∉ K) (hr : .reports ∉ K)
    (hi : .interrupted ∉ K) : Settled w w' :=
  ⟨owners_of_frame hf hr hi, no_new_of_same (hf.same .jobs hj)⟩

theorem Settled.refl (w : World) : Settled w w :=
  settled_of_frame (K := []) (Frame.refl w) (by simp) (by simp) (by simp)

abbrev KeepsSettled (m : Act α) : Prop := Keeps Settled m

theorem KeepsSettled.final {m : Act α} (h : KeepsSettled m) (w : World) : Settled w (m.final w) :=
  Keeps.final h Settled.refl (fun _ _ _ => Settled.trans) w

theorem settles_of_touches {K : List Part} {m : Act α} (h : Touches K m) (hj : .jobs ∉ K)
    (hr : .reports ∉ K) (hi : .interrupted ∉ K) : KeepsSettled m :=
  h.mono fun _ _ ho => settled_of_frame ho.frame hj hr hi

theorem settles_quiet {m : Act α} (h : Touches [] m) : KeepsSettled m :=
  settles_of_touches h (by simp) (by simp) (by simp)

theorem settles_saving {m : Act α} (h : KeepsSettled m) : KeepsSettled (saving env m) :=
  keeps_bind h fun _ => keeps_bind (settles_quiet (touches_save_state env)) fun _ => keeps_pure _

theorem settles_job {job : Job} (h : job.job_type ≠ .evaluation) : KeepsSettled (persist_job job) := by
  refine keeps_bind (keeps_write fun w => ?_) fun _ => keeps_pure _
  have hput : Frame [.jobs] w
      { w with store := { w.store with jobs := w.store.jobs.put job } } := by
    refine ⟨fun p hp => ?_, Nat.le_refl _⟩
    cases p <;> first | rfl | exact absurd List.mem_cons_self hp
  exact ⟨owners_of_frame hput (by simp) (by simp), no_new_of_put rfl fun htype => absurd htype h⟩

theorem settles_document (document : Document) : KeepsSettled (persist_document document) :=
  settles_of_touches (K := [.documents, .chunks])
    (touches_persist_document (by simp) (by simp) document) (by simp) (by simp) (by simp)

theorem settles_item (item : DlqItem) : KeepsSettled (persist_dlq_item item) :=
  settles_of_touches (K := [.dlq]) (touches_persist_dlq_item (by simp) item) (by simp) (by simp)
    (by simp)

theorem settles_event (env : Env)
    (tenant_id event_type aggregate_type aggregate_id : String) (payload : PyDict) :
    KeepsSettled (append_outbox_event env tenant_id event_type aggregate_type aggregate_id payload) :=
  settles_of_touches (K := [.outbox]) (touches_outbox env (by simp) _ _ _ _ _) (by simp) (by simp)
    (by simp)

theorem settles_parse_job (env : Env) (document_id trace_id tenant_id : String) :
    KeepsSettled (create_parse_job env document_id trace_id tenant_id) := by
  refine settles_saving (keeps_bind (settles_quiet (touches_get_document _ _)) fun document => ?_)
  split
  · exact keeps_raise _
  · refine keeps_bind (settles_quiet (touches_uuid4 env)) fun hex =>
      keeps_bind (settles_quiet (touches_new_thread_id env _)) fun thread_id =>
        keeps_bind (settles_job (by simp)) fun job => ?_
    refine keeps_bind (settles_quiet (touches_new_manifest env _ _ _)) fun manifest =>
      keeps_bind (settles_quiet (touches_persist_manifest _)) fun _ => ?_
    exact keeps_bind (settles_document _) fun _ => keeps_bind (settles_event env _ _ _ _ _) fun _ =>
      keeps_pure _

theorem settles_upload (env : Env) (payload : UploadPayload) (has_file : Bool) :
    KeepsSettled (create_upload_job env payload has_file) := by
  refine settles_saving (keeps_bind keeps_read fun w => ?_)
  split
  · exact keeps_pure _
  · refine keeps_bind (settles_quiet (touches_uuid4 env)) fun hex =>
      keeps_bind (settles_quiet (touches_put_upload env _ _ _)) fun uri => ?_
    have hchunks : Touches [.chunks] (persist_document_chunks env payload.tenant_id
        ("doc_" ++ hex) []) := touches_persist_chunks env (by simp) _ _ _
    exact keeps_bind (settles_document _) fun _ =>
      keeps_bind (settles_of_touches hchunks (by simp) (by simp) (by simp)) fun _ =>
        keeps_bind (settles_parse_job env _ _ _) fun _ => keeps_pure _

theorem settles_requeue (env : Env) (dlq_id trace_id tenant_id : String) :
    KeepsSettled (requeue_dlq_item env dlq_id trace_id tenant_id) := by
  refine settles_saving (keeps_bind keeps_read fun w => ?_)
  split
  · exact keeps_raise _
  · refine keeps_ite (keeps_raise _) ?_
    refine keeps_bind (settles_quiet (touches_uuid4 env)) fun hex =>
      keeps_bind (settles_quiet (touches_new_thread_id env _)) fun thread_id =>
        keeps_bind (settles_job (by simp)) fun job => ?_
    exact keeps_bind (settles_item _) fun _ =>
      keeps_bind (settles_quiet (touches_audit env _ _ _)) fun _ => keeps_pure _

theorem settles_discard (env : Env)
    (dlq_id reason reviewer_id reviewer_id_2 tenant_id trace_id : String) :
    KeepsSettled (discard_dlq_item env dlq_id reason reviewer_id reviewer_id_2 tenant_id trace_id) := by
  refine settles_saving (keeps_bind keeps_read fun w => ?_)
  split
  · exact keeps_raise _
  · refine keeps_ite (keeps_raise _) (keeps_ite (keeps_raise _) ?_)
    exact keeps_bind (settles_item _) fun _ => settles_quiet (touches_audit env _ _ _)

theorem transition.settled (job_id : String) (status : JobStatus) (tenant_id : Option String) :
    Settled w ((transition_job_status env job_id status tenant_id).final w) := by
  have hframe := (touches_transition (K := [.jobs]) env (by simp) job_id status tenant_id).frame w
  have hspec : Meets (Step env noQueued) (transition_job_status env job_id status tenant_id) w _ :=
    transition_job_status.spec fun job _ _ hedge heq => by
      have heq : status = .queued := heq
      rw [heq] at hedge
      exact not_moved_to_queued hedge
  exact ⟨owners_of_frame hframe (by simp) (by simp), no_new_of_steps hspec.1⟩

theorem cancel_job.settled (job_id tenant_id : String) :
    Settled w ((cancel_job env job_id tenant_id).final w) := by
  have hspec : Meets (fun a b => Step env noQueued a b ∨ CancelStep job_id a b) _ w _ :=
    cancel_job.spec w job_id tenant_id
  rcases hspec.2 with ⟨e, -, hsame⟩ | ⟨job, -, hstored, hput⟩
  · rw [hsame]
    exact Settled.refl w
  · refine ⟨owners_of_frame hput.frame (by simp) (by simp), no_new_of_put hput.jobs fun _ => ?_⟩
    exact ⟨job, hstored, rfl, rfl, rfl, rfl⟩

theorem run_job_once.settled (h : Owned env w) (job_id tenant_id : String) (flags : RunFlags) :
    Settled w ((run_job_once env job_id tenant_id flags).final w) :=
  ⟨(run_job_once.owners h.waiting h.jobs job_id tenant_id flags).2,
    run_job_once.makes_none h.named job_id tenant_id flags⟩

theorem Owned.settled (h : Owned env w) (hn : Named env w') (hdraws : w.draws ≤ w'.draws)
    (hs : Settled w w') : Owned env w' := by
  refine ⟨hn, fun id report hreport => ?_, fun thread_id state hwaits => ?_,
    fun id job hjob htype => ?_⟩
  · rcases hold : w.store.evaluation_reports.get? id with _ | old
    · rw [hs.owners.known id hold] at hreport
      cases hreport
    · exact (h.reports id old hold).mono hdraws
  · rcases hs.owners.waiting thread_id state hwaits with hold | hnew
    · obtain ⟨e, t, hcase, hreport⟩ := h.waiting thread_id state hold
      exact ⟨e, t, hcase, hs.owners.kept e t hreport⟩
    · exact hnew
  · obtain ⟨old, hold, hsame⟩ := hs.jobs id job hjob htype
    rw [hsame.resource_id, hsame.tenant_id]
    exact hs.owners.kept _ _ (h.jobs id old hold (hsame.job_type.symm.trans htype))

/-- The job of a rollback is made and run at once. -/
theorem execute_rollback.settled (h : Owned env w) (release_id tenant_id trace_id : String)
    (trigger_gate : Option String) :
    Settled w ((execute_rollback env release_id tenant_id trace_id trigger_gate).final w) := by
  have hspec : Meets (Step env anyJob)
      (execute_rollback env release_id tenant_id trace_id trigger_gate) w
      (fun _ t => Settled w t) := by
    have hlater : ∀ {t t' : World}, Settled w t → Frame [] t t' → Settled w t' := fun hs hf =>
      hs.trans (settled_of_frame hf (by simp) (by simp) (by simp))
    unfold execute_rollback
    refine meets_saving ?_ (fun _ _ _ hs hf => hlater hs hf)
    cases trigger_gate with
    | none =>
      rw [meets_pure]
      exact Settled.refl w
    | some gate =>
      refine past (K := []) (touches_audit env _ _ _) (by simp) (fun _ t₁ hf₁ => ?_)
        (fun e t hf => hlater (Settled.refl w) hf)
      have hjobs : t₁.store.jobs = w.store.jobs := hf₁.same .jobs (by simp)
      refine past_job_name (h.named.frame hf₁ (by simp) (by simp) (by simp))
        fun hex t₂ hf₂ hid hfresh => ?_
      refine past_calm (touches_new_thread_id env "replay") (returns_new_thread_id env "replay")
        fun thread_id t₃ hf₃ => ?_
      have hf := (hf₁.trans hf₂).trans hf₃
      refine past_new (w := w) (hf.same .jobs (by simp)) (hid.mono hf₃.draws) (hjobs ▸ hfresh) rfl
        trivial (h.named.frame hf (by simp) (by simp) (by simp)) fun t₄ hopened hput => ?_
      have hframe : Frame [.jobs] w t₄ := (hf.mono (by simp)).trans hput
      have hs : Settled w t₄ := by
        refine ⟨owners_of_frame hframe (by simp) (by simp), no_new_of_put hopened.jobs ?_⟩
        rintro ⟨⟩
      have howned := h.settled hopened.named hframe.draws hs
      have hrun : Meets (Step env anyJob)
          (run_job_once env ("job_" ++ hex) tenant_id RunFlags.default) t₄ _ :=
        run_job_once.spec any_free hopened.named
          fun _ _ _ _ hfails => absurd hfails default_never_fails
      have hends : Meets (Step env anyJob)
          (run_job_once env ("job_" ++ hex) tenant_id RunFlags.default) t₄
          (fun _ t => Settled t₄ t) := ⟨hrun.1, run_job_once.settled howned _ _ _⟩
      refine hends.bind (fun _ t₅ hs₅ => ?_) (fun _ t₅ hs₅ => hs.trans hs₅)
      exact (meets_touches (K := []) (touches_audit env _ _ _) (by simp)).post
        fun _ t₆ hf₆ => hlater (hs.trans hs₅) hf₆
  exact hspec.2

/-! ## The resume -/

theorem clear_review.owners {t : World} (hf : Frame [.jobs] w t) (evaluation_id : String)
    (tenant_id : String) :
    Meets AnyStep (clear_review env (get_report w.store evaluation_id tenant_id)) t
      (fun _ t' => OwnersKept w t') := by
  have hkept : OwnersKept w t := owners_of_frame hf (by simp) (by simp)
  rcases hreport : get_report w.store evaluation_id tenant_id with _ | report
  · unfold clear_review
    rw [meets_pure]
    exact hkept
  · obtain ⟨hfound, htenant⟩ := Option.filter_eq_some_iff.1 hreport
    have hid : report.evaluation_id = evaluation_id := Table.key_of_get? _ hfound
    have howner : report.tenant_id = tenant_id := of_decide_eq_true htenant
    have hhas : HasReport t evaluation_id tenant_id := hkept.kept _ _ ⟨report, hfound, howner⟩
    have hcase : OnCase evaluation_id tenant_id (persist_evaluation_report env
        { report with needs_human_review := false, interrupt := none }) :=
      on_case_report env hid howner
    exact (owners_of_case hcase hhas).post fun _ _ h => hkept.trans h

theorem create_resume_job.settled (evaluation_id : String) (payload : ResumePayload) :
    Settled w ((create_resume_job env evaluation_id payload).final w) := by
  have howners : Meets AnyStep (create_resume_job env evaluation_id payload) w
      (fun _ t => OwnersKept w t) := by
    apply create_resume_job.walk
    intro job t hjob
    refine (clear_review.owners hjob.frame evaluation_id payload.tenant_id).post ?_
    intro r t' hkept
    cases r with
    | ok u => exact fun t'' hf => hkept.trans (owners_of_frame hf (by simp) (by simp))
    | error e => exact hkept
  refine ⟨howners.2, ?_⟩
  rcases (create_resume_job.rules env evaluation_id payload w).2.jobs with hsame | ⟨job, hput, htype⟩
  · exact no_new_of_same hsame
  · refine no_new_of_put hput fun hevaluation => ?_
    rw [htype] at hevaluation
    cases hevaluation

theorem execute_resume.settled (evaluation_id resume_token : String) (payload : ResumePayload) :
    Settled w ((execute_resume env evaluation_id resume_token payload).final w) := by
  have hspec : Meets AnyStep (execute_resume env evaluation_id resume_token payload) w
      (fun _ t => Settled w t) := by
    unfold execute_resume
    refine past_parts (K := [.tokens]) (touches_consume_token env (by simp) _ _ _)
      (fun consumed t hf => ?_) (fun e t hf => settled_of_frame hf (by simp) (by simp) (by simp))
    have hs : Settled w t := settled_of_frame hf (by simp) (by simp) (by simp)
    rw [meets_ite]
    refine ⟨fun _ => ⟨keeps_true _ _, hs.trans (create_resume_job.settled evaluation_id payload)⟩,
      fun _ => ?_⟩
    unfold raise_api
    rw [meets_raise]
    exact hs
  exact hspec.2

/-! ## A new evaluation -/

/-- The nodes that returned have stored the report of their case. -/
theorem nodes_store_the_report {state : EvaluationState}
    (h : OfCase evaluation_id tenant_id state) (w : World) :
    Meets AnyStep (run_evaluation_nodes_sequentially env state) w
      (fun r t => ∀ s, r = .ok s → HasReport t evaluation_id tenant_id) := by
  have hnode : ∀ {s : EvaluationState} (node : Node), OfCase evaluation_id tenant_id s → ∀ t,
      Meets AnyStep (node_fn env s node) t
        (fun r _ => ∀ s', r = .ok s' → OfCase evaluation_id tenant_id s') :=
    fun node hs t => meets_any (node_fn_case env hs node t)
  unfold run_evaluation_nodes_sequentially
  refine (hnode .load_context h w).bind (fun s₁ t₁ h₁ => ?_) (by rintro e t - _ ⟨⟩)
  refine (hnode .retrieve_evidence (h₁ _ rfl) t₁).bind (fun s₂ t₂ h₂ => ?_) (by rintro e t - _ ⟨⟩)
  refine (hnode .evaluate_rules (h₂ _ rfl) t₂).bind (fun s₃ t₃ h₃ => ?_) (by rintro e t - _ ⟨⟩)
  refine (hnode .score_with_llm (h₃ _ rfl) t₃).bind (fun s₄ t₄ h₄ => ?_) (by rintro e t - _ ⟨⟩)
  refine (hnode .quality_gate (h₄ _ rfl) t₄).bind (fun s₅ t₅ h₅ => ?_) (by rintro e t - _ ⟨⟩)
  refine (hnode .finalize_report (h₅ _ rfl) t₅).bind (fun s₆ t₆ h₆ => ?_) (by rintro e t - _ ⟨⟩)
  unfold node_persist_result
  split
  · rw [meets_raise]
    rintro _ ⟨⟩
  · rename_i report hreport
    obtain ⟨hid, htenant⟩ := (h₆ _ rfl).report report hreport
    refine (persist_evaluation_report.spec env report t₆).bind (fun u t₇ hstores => ?_)
      (by rintro e t - _ ⟨⟩)
    obtain ⟨-, uri, hput⟩ := hstores
    rw [meets_pure]
    rintro _ -
    refine ⟨{ report with report_uri := uri }, ?_, htenant⟩
    rw [hput, Table.get?_put, if_pos (show evaluation_id = _ from hid.symm)]

/-- What the creation of an evaluation leaves, whether it returned or raised.
A job that was made has its report. -/
structure EvaluationMade (evaluation_id tenant_id : String) (w t : World) : Prop where
  frame : Frame [.jobs, .reports, .tokens, .outbox] w t
  others : ∀ id, id ≠ evaluation_id →
    t.store.evaluation_reports.get? id = w.store.evaluation_reports.get? id
  jobs : t.store.jobs = w.store.jobs ∨ ∃ job, t.store.jobs = w.store.jobs.put job ∧
    job.resource_id = evaluation_id ∧ job.tenant_id = tenant_id ∧
    HasReport t evaluation_id tenant_id

theorem EvaluationMade.later {K : List Part} {t t' : World}
    (h : EvaluationMade evaluation_id tenant_id w t) (hf : Frame K t t')
    (hK : K ⊆ [.jobs, .reports, .tokens, .outbox]) (hj : .jobs ∉ K) (hr : .reports ∉ K)
    (hi : .interrupted ∉ K) : EvaluationMade evaluation_id tenant_id w t' := by
  have hjobs : t'.store.jobs = t.store.jobs := hf.same .jobs hj
  have hreports : t'.store.evaluation_reports = t.store.evaluation_reports := hf.same .reports hr
  refine ⟨h.frame.trans (hf.mono hK), fun id hid => ?_, ?_⟩
  · rw [hreports]
    exact h.others id hid
  · rw [hjobs]
    exact h.jobs.imp_right fun ⟨job, hput, hid, htenant, hreport⟩ =>
      ⟨job, hput, hid, htenant, (owners_of_frame hf hr hi).kept _ _ hreport⟩

theorem create_evaluation_job.makes (env : Env) (payload : EvaluationPayload) (w : World) :
    Meets AnyStep (create_evaluation_job env payload) w (fun _ t =>
      EvaluationMade ("ev_" ++ env.uuid4.hex12 w.draws) payload.tenant_id w t) := by
  have hname : Meets (Step env anyJob) (uuid4_hex12 env) w _ := uuid4_hex12.spec w
  unfold create_evaluation_job
  refine any_saving ?_ (fun _ _ _ h hf => h.later hf (by simp) (by simp) (by simp) (by simp))
  refine (meets_any hname).bind ?_ (by rintro e t ⟨he, -⟩; cases he)
  rintro hex t₁ ⟨⟨⟩, ht₁⟩
  have hf₁ : Frame [] w t₁ := by
    rw [ht₁]
    exact ⟨fun p _ => by cases p <;> rfl, Nat.le_succ _⟩
  refine past_return (K := []) (touches_uuid4 env) (returns_uuid4 env) fun job_hex t₂ hf₂ => ?_
  refine past_return (K := []) (touches_new_thread_id env "eval")
    (returns_new_thread_id env "eval") fun thread_id t₃ hf₃ => ?_
  have hf := (hf₁.trans hf₂).trans hf₃
  have hreports : t₃.store.evaluation_reports = w.store.evaluation_reports :=
    hf.same .reports (by simp)
  dsimp only
  generalize hstate : initial_state payload.tenant_id ("ev_" ++ env.uuid4.hex12 w.draws)
    payload.trace_id thread_id ("job_" ++ job_hex) payload = state
  have hcase : OfCase ("ev_" ++ env.uuid4.hex12 w.draws) payload.tenant_id state := by
    rw [← hstate]
    exact ⟨rfl, rfl, by rintro _ ⟨⟩⟩
  have hnodes : Meets AnyStep (run_evaluation_nodes_sequentially env state) t₃ _ :=
    ((run_evaluation_nodes.spec state t₃).and
      (ends_touches (K := [.tokens, .reports]) (touches_nodes env (by simp) (by simp) state) t₃)).and
        (nodes_store_the_report hcase t₃)
  have hmade : ∀ {t : World}, Ruled state.evaluation_id True t₃ t → Frame [.tokens, .reports] t₃ t →
      EvaluationMade ("ev_" ++ env.uuid4.hex12 w.draws) payload.tenant_id w t := by
    intro t hruled hf'
    have hframe : Frame [.tokens, .reports] w t := (hf.mono (by simp)).trans hf'
    refine ⟨hframe.mono (by simp), fun id hid => ?_, .inl (hframe.same .jobs (by simp))⟩
    rw [hruled.only.reports id (hcase.named.symm ▸ hid), hreports]
  refine hnodes.bind ?_ (fun e t h => hmade h.1.1 h.1.2)
  rintro last t₄ ⟨⟨hruled₄, hf₄⟩, hstored⟩
  have hmade₄ := hmade hruled₄ hf₄
  refine (persist_job.any _ t₄).bind ?_ (by rintro e t ⟨he, -⟩; cases he)
  rintro job t₅ ⟨hjob, hput⟩
  rw [← Except.ok.inj hjob] at hput
  have hjobs : t₄.store.jobs = w.store.jobs :=
    ((hf.mono (by simp)).trans hf₄).same .jobs (by simp)
  have hmade₅ : EvaluationMade ("ev_" ++ env.uuid4.hex12 w.draws) payload.tenant_id w t₅ := by
    have hkept : OwnersKept t₄ t₅ := owners_of_frame hput.frame (by simp) (by simp)
    have hsame : t₅.store.evaluation_reports = t₄.store.evaluation_reports :=
      hput.frame.same .reports (by simp)
    refine ⟨hmade₄.frame.trans (hput.frame.mono (by simp)), fun id hid => ?_, .inr ⟨job, ?_, ?_, ?_,
      hkept.kept _ _ (hstored last rfl)⟩⟩
    · rw [hsame]
      exact hmade₄.others id hid
    · rw [hput.jobs, hjobs]
    · cases hjob
      rfl
    · cases hjob
      rfl
  refine past_return (K := [.outbox]) (touches_outbox env (by simp) _ _ _ _ _)
    (returns_announce env _ _ _ _ _) fun _ t₆ hf₆ => ?_
  rw [meets_pure]
  exact hmade₅.later hf₆ (by simp) (by simp) (by simp) (by simp)

/-! ## Runs -/

theorem owned_start : Owned env World.start :=
  ⟨named_start, fun _ _ h => by simp [World.start, Store.empty] at h,
    fun _ _ h => by simp [World.start] at h, fun _ _ h => by simp [World.start, Store.empty] at h⟩

/-- No evaluation had the name of the new one, so no owner changes. -/
theorem owned_create (h : Owned env w) (payload : EvaluationPayload) :
    Owned env (perform env w (.create_evaluation_job payload)) := by
  have hn : Named env (perform env w (.create_evaluation_job payload)) :=
    named_perform any_new any_free h.named _ (permits_any _)
  have hmade := (create_evaluation_job.makes env payload w).2
  have hdraws := (create_evaluation_job.rules env payload w).2.draws
  unfold perform at hn ⊢
  rw [show (Op.create_evaluation_job payload).act env = quiet (create_evaluation_job env payload)
    from rfl, final_quiet] at hn ⊢
  generalize (create_evaluation_job env payload).final w = t at hn hmade hdraws ⊢
  have hfresh : ∀ id report, w.store.evaluation_reports.get? id = some report →
      id ≠ "ev_" ++ env.uuid4.hex12 w.draws := by
    rintro id report hreport rfl
    exact undrawn (h.reports _ report hreport)
  have hkept : ∀ e owner, HasReport w e owner → HasReport t e owner := by
    rintro e owner ⟨report, hreport, howner⟩
    exact ⟨report, (hmade.others e (hfresh e report hreport)).trans hreport, howner⟩
  have hjob : ∀ id job, w.store.jobs.get? id = some job → job.job_type = .evaluation →
      HasReport t job.resource_id job.tenant_id := fun id job hold htype =>
    hkept _ _ (h.jobs id job hold htype)
  refine ⟨hn, fun id report hreport => ?_, fun thread_id state hwaits => ?_,
    fun id job hstored htype => ?_⟩
  · by_cases hid : id = "ev_" ++ env.uuid4.hex12 w.draws
    · exact ⟨w.draws, hdraws, hid⟩
    · rw [hmade.others id hid] at hreport
      exact (h.reports id report hreport).mono hdraws.le
  · have hwaiting : t.interrupted = w.interrupted := hmade.frame.same .interrupted (by simp)
    rw [hwaiting] at hwaits
    obtain ⟨e, owner, hcase, hreport⟩ := h.waiting thread_id state hwaits
    exact ⟨e, owner, hcase, hkept e owner hreport⟩
  · rcases hmade.jobs with hsame | ⟨new, hput, hid, htenant, hreport⟩
    · rw [hsame] at hstored
      exact hjob id job hstored htype
    · rw [hput, Table.get?_put] at hstored
      split at hstored
      · cases hstored
        rw [hid, htenant]
        exact hreport
      · exact hjob id job hstored htype

/-- Any other operation settles the owners. -/
theorem op_settled (h : Owned env w) (op : Op)
    (hop : ∀ payload, op ≠ .create_evaluation_job payload) : Settled w (perform env w op) := by
  unfold perform
  cases op with
  | create_evaluation_job payload => exact absurd rfl (hop payload)
  | cancel_job job_id tenant_id => exact cancel_job.settled job_id tenant_id
  | discard_dlq_item dlq_id reason reviewer_id reviewer_id_2 tenant_id trace_id =>
    exact KeepsSettled.final (settles_discard env _ _ _ _ _ _) w
  | execute_rollback release_id tenant_id trace_id trigger_gate =>
    exact execute_rollback.settled h _ _ _ _
  | upload payload has_file =>
    exact (final_quiet _ w).symm ▸ KeepsSettled.final (settles_upload env payload has_file) w
  | create_parse_job document_id trace_id tenant_id =>
    exact (final_quiet _ w).symm ▸ KeepsSettled.final (settles_parse_job env _ _ _) w
  | consume_resume_token evaluation_id resume_token tenant_id =>
    have hconsume := settles_of_touches (K := [.tokens]) (touches_consume_token env (by simp)
      evaluation_id resume_token tenant_id) (by simp) (by simp) (by simp)
    exact (final_quiet _ w).symm ▸ KeepsSettled.final hconsume w
  | create_resume_job evaluation_id payload =>
    exact (final_quiet _ w).symm ▸ create_resume_job.settled evaluation_id payload
  | resume evaluation_id resume_token payload =>
    exact (final_quiet _ w).symm ▸ execute_resume.settled evaluation_id resume_token payload
  | run_job_once job_id tenant_id flags =>
    exact (final_quiet _ w).symm ▸ run_job_once.settled h job_id tenant_id flags
  | transition_job_status job_id new_status tenant_id =>
    exact (final_quiet _ w).symm ▸ transition.settled job_id new_status tenant_id
  | seed_dlq_item job_id error_class error_code tenant_id =>
    have hseed := settles_of_touches (K := [.dlq]) (touches_seed_dlq_item env (by simp) job_id
      error_class error_code tenant_id) (by simp) (by simp) (by simp)
    exact (final_quiet _ w).symm ▸ KeepsSettled.final hseed w
  | requeue_dlq_item dlq_id trace_id tenant_id =>
    exact (final_quiet _ w).symm ▸ KeepsSettled.final (settles_requeue env _ _ _) w

theorem owned_perform (h : Owned env w) (op : Op) : Owned env (perform env w op) := by
  by_cases hop : ∃ payload, op = .create_evaluation_job payload
  · obtain ⟨payload, rfl⟩ := hop
    exact owned_create h payload
  · exact h.settled (named_perform any_new any_free h.named op (permits_any op))
      (draws_grow h.named op) (op_settled h op fun payload heq => hop ⟨payload, heq⟩)

/-- From any world that the operations keep, they keep it. -/
theorem owned_from (h : Owned env w) (ops : List Op) : Owned env (after env w ops) := by
  induction ops generalizing w with
  | nil => exact h
  | cons op rest ih => exact ih (owned_perform h op)

/-- After any operations each evaluation job has its report, and the report
belongs to the tenant of the job. -/
theorem evaluation_jobs_have_reports (env : Env) (ops : List Op) :
    JobsHaveReports (after env World.start ops) := (owned_from owned_start ops).jobs

end bid_evaluation.report_owners
