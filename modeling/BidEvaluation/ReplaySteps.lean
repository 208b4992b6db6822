-- One replay of a release: which jobs it makes, what it says of them, and
-- that all its writes are writes of operations.
import BidEvaluation.CrashLaws
import BidEvaluation.StoreRelease

open dict_lib stepwise zoom bid_evaluation.values bid_evaluation.core bid_evaluation.store_admin
  bid_evaluation.store_parse bid_evaluation.store_workflow bid_evaluation.store_eval
  bid_evaluation.job_run bid_evaluation.workflow_state bid_evaluation.operations
  bid_evaluation.frames bid_evaluation.job_steps bid_evaluation.run_steps bid_evaluation.op_steps
  bid_evaluation.job_laws bid_evaluation.endings bid_evaluation.writes bid_evaluation.links
  bid_evaluation.delivery bid_evaluation.crash_laws bid_evaluation.store_release

namespace bid_evaluation.replay_steps

variable {w w' : World} {s t : Store}

/-! ## The job of a creator -/

/-- The job is stored, and it was made for this work. -/
def MadeFor (tenant_id : String) (job_type : JobType) (resource_id job_id : String) (s : Store) :
    Prop :=
  ∃ job, s.jobs.get? job_id = some job ∧ job.tenant_id = tenant_id ∧ job.job_type = job_type ∧
    job.resource_id = resource_id

theorem MadeFor.lasts {tenant_id resource_id job_id : String} {job_type : JobType}
    (h : MadeFor tenant_id job_type resource_id job_id s) (hst : Lasts s t) :
    MadeFor tenant_id job_type resource_id job_id t := by
  obtain ⟨job, hjob, htenant, htype, hresource⟩ := h
  obtain ⟨job', hjob', hwork, -⟩ := hst.jobs job_id job hjob
  exact ⟨job', hjob', hwork.tenant_id.trans htenant, hwork.job_type.trans htype,
    hwork.resource_id.trans hresource⟩

/-- If the program returns, this is so at its end. -/
abbrev Leaves (m : Act α) (w : World) (Q : α → World → Prop) : Prop :=
  Meets AnyStep m w (OnReturn Q)

theorem leaves_after {m : Act α} {f : α → Act β} {Q : β → World → Prop}
    (h : ∀ a t, Leaves (f a) t Q) : Leaves (m >>= f) w Q :=
  Meets.bind (P := fun _ _ => True) ⟨keeps_true m w, trivial⟩ (fun a t _ => h a t)
    fun _ _ _ => trivial

theorem leaves_raise {e : PyErr} {Q : α → World → Prop} : Leaves (raise e : Act α) w Q :=
  meets_raise.2 trivial

theorem leaves_saving {env : Env} {m : Act α} {Q : α → Store → Prop}
    (h : Leaves m w fun a t => Q a t.store) :
    Leaves (saving env m) w fun a t => Q a t.store := by
  refine saved.spec h fun a t t' ha hstore _ => ?_
  show Q a t'.store
  rw [hstore]
  exact ha

theorem same_jobs {K : List Kind} {m : Act α} (h : Writes K m) (hj : .jobs ∉ K) (w : World) :
    (m.final w).store.jobs = w.store.jobs := by
  have hsteps : Keeps (fun w w' : World => w'.store.jobs = w.store.jobs) m := by
    refine h.mono ?_
    rintro w w' ⟨kind, hkind, hwrite⟩
    cases hwrite with
    | store _ hstore =>
      cases hstore with
      | job => simp [hj] at hkind
      | _ => rfl
    | _ => rfl
  exact hsteps.final (fun _ => rfl) (fun _ _ _ h h' => h'.trans h) w

section made

variable {tenant_id resource_id job_id : String} {job_type : JobType}

/-- Go past a program that writes no job. -/
theorem past_made {K : List Kind} {m : Act α} {f : α → Act β} {Q : β → World → Prop}
    (h : Writes K m) (hj : .jobs ∉ K) (hw : MadeFor tenant_id job_type resource_id job_id w.store)
    (hf : ∀ a t, MadeFor tenant_id job_type resource_id job_id t.store → Leaves (f a) t Q) :
    Leaves (m >>= f) w Q := by
  refine Meets.bind (P := fun _ t => MadeFor tenant_id job_type resource_id job_id t.store)
    ⟨keeps_true m w, ?_⟩ hf fun _ _ _ => trivial
  have hsame := same_jobs h hj w
  unfold MadeFor at hw ⊢
  rw [← hsame] at hw
  exact hw

theorem past_persist {job : Job} {f : Job → Act β} {Q : β → World → Prop}
    (hf : ∀ t, MadeFor job.tenant_id job.job_type job.resource_id job.job_id t.store →
      Leaves (f job) t Q) : Leaves (persist_job job >>= f) w Q := by
  simp only [Leaves, persist_job, update, meets_bind, meets_write, then_ok, meets_pure, any_step,
    true_and]
  exact hf _ ⟨job, Table.get?_put_self _ _, rfl, rfl, rfl⟩

end made

theorem create_parse_job.makes (env : Env) (document_id trace_id tenant_id : String) (w : World) :
    Leaves (create_parse_job env document_id trace_id tenant_id) w fun job_id t =>
      MadeFor tenant_id .parse document_id job_id t.store := by
  refine leaves_saving (leaves_after fun document t => ?_)
  cases document with
  | none => exact leaves_raise
  | some document =>
    refine leaves_after fun hex t => leaves_after fun thread_id t => past_persist fun t ht => ?_
    have hmanifest : Writes [] (new_manifest env ("job_" ++ hex) tenant_id document) :=
      keeps_bind (writes_uuid4 env) fun _ => keeps_pure _
    refine past_made hmanifest (by simp) ht fun manifest t ht => ?_
    refine past_made (writes_persist_manifest (K := [.manifests]) (by simp) manifest) (by simp) ht
      fun _ t ht => ?_
    refine past_made (writes_persist_document (K := [.documents]) (by simp) _) (by simp) ht
      fun _ t ht => ?_
    refine past_made (writes_outbox env (K := [.outbox]) (by simp) _ _ _ _ _) (by simp) ht
      fun _ t ht => ?_
    exact meets_pure.2 ht

/-- No job has the name of a document. -/
theorem no_job_of_document {env : Env} (hn : Named env w) (hdrawn : DocumentsDrawn env w)
    {document : Document} (h : w.store.documents.get? document.document_id = some document) :
    w.store.jobs.get? document.document_id = none := by
  by_contra hne
  obtain ⟨job, hjob⟩ := Option.ne_none_iff_exists'.1 hne
  obtain ⟨n, -, hname⟩ := hn.jobs _ job hjob
  obtain ⟨m, -, hname'⟩ := hdrawn _ document h
  have hfirst := congrArg (fun name => name.toList.head?) (hname.symm.trans hname')
  simp at hfirst

theorem create_upload_job.makes {env : Env} (hn : Named env w) (hdrawn : DocumentsDrawn env w)
    (payload : UploadPayload) (has_file : Bool) :
    Leaves (create_upload_job env payload has_file) w fun ids t =>
      ∀ job_id, ids.2 = some job_id → MadeFor payload.tenant_id .parse ids.1 job_id t.store := by
  refine leaves_saving (Q := fun (ids : String × Option String) s =>
    ∀ job_id, ids.2 = some job_id → MadeFor payload.tenant_id .parse ids.1 job_id s) ?_
  refine meets_bind.2 (meets_read.2 (then_ok.2 ?_))
  split
  · rename_i existing hexisting
    refine meets_pure.2 fun job_id hjob_id => ?_
    have hstored : w.store.documents.get? existing.document_id = some existing := by
      unfold duplicate_of at hexisting
      split at hexisting
      · cases hexisting
      · exact (Table.mem_values_iff _ _).1 (List.mem_of_find?_eq_some hexisting)
    rw [no_job_of_document hn hdrawn hstored] at hjob_id
    cases hjob_id
  · refine leaves_after fun hex t => leaves_after fun uri t => leaves_after fun _ t =>
      leaves_after fun _ t => ?_
    refine (create_parse_job.makes env _ _ _ t).bind (fun job_id t ht => meets_pure.2 ?_)
      fun _ _ _ => trivial
    rintro _ ⟨⟩
    exact ht

theorem create_evaluation_job.makes (env : Env) (payload : EvaluationPayload) (w : World) :
    Leaves (create_evaluation_job env payload) w fun ids t =>
      MadeFor payload.tenant_id .evaluation ids.1 ids.2 t.store := by
  refine leaves_saving (Q := fun (ids : String × String) s =>
    MadeFor payload.tenant_id .evaluation ids.1 ids.2 s) ?_
  refine leaves_after fun evaluation_hex t => leaves_after fun job_hex t =>
    leaves_after fun thread_id t => leaves_after fun _ t => past_persist fun t ht => ?_
  exact past_made (writes_outbox env (K := [.outbox]) (by simp) _ _ _ _ _) (by simp) ht
    fun _ t ht => meets_pure.2 ht

theorem create_resume_job.makes (env : Env) (evaluation_id : String) (payload : ResumePayload)
    (w : World) : Leaves (create_resume_job env evaluation_id payload) w fun job_id t =>
      MadeFor payload.tenant_id .resume evaluation_id job_id t.store := by
  refine leaves_saving (leaves_after fun hex t => leaves_after fun _ t =>
    leaves_after fun thread_id t => past_persist fun t ht => ?_)
  refine past_made (writes_clear_review env (K := [.reports]) (by simp) _) (by simp) ht
    fun _ t ht => ?_
  refine past_made (writes_audit env (K := []) _ _ _) (by simp) ht fun _ t ht => ?_
  exact past_made (writes_outbox env (K := [.outbox]) (by simp) _ _ _ _ _) (by simp) ht
    fun _ t ht => meets_pure.2 ht

/-- A run that returned leaves its job with the status that it names. -/
theorem run_job_once.ends {env : Env} (hn : Named env w) (job_id tenant_id : String)
    (flags : RunFlags) : Leaves (run_job_once env job_id tenant_id flags) w fun result t =>
      EndedAs job_id result.final_status t := by
  have hpermits : Permits env anyJob w (.run_job_once job_id tenant_id flags) := permits_any _
  have hspec : Meets (Step env anyJob) (run_job_once env job_id tenant_id flags) w _ :=
    run_job_once.spec any_free hn hpermits
  refine (meets_any hspec).post ?_
  rintro (e | result) t h
  · trivial
  · rcases h with ⟨job, rfl, -, -, job', hbecame, hstatus, -⟩ | ⟨-, ⟨e, he⟩, -⟩
    · have hstored : t.store.jobs.get? job'.job_id = some job' := hbecame.stored
      rw [hbecame.same.job_id] at hstored
      exact ⟨job', hstored, hstatus⟩
    · cases he

/-! ## Programs that are made of operations -/

/-- In a good world each write of the program is one that an operation makes. -/
def Watched (env : Env) (m : Act α) : Prop :=
  ∀ w, Good env w w.store → Steps (Seen env) w (m.written w)

/-- The program of an operation, with what it returns. -/
theorem watched_op {env : Env} {m : Act α} (op : Op) (h : op.act env = operations.quiet m) :
    Watched env m := by
  intro w hw
  have hsteps := seen_of_good hw op
  rw [writes_of, h, operations.quiet, written_bind_pure] at hsteps
  exact hsteps

/-- A program that touches no record. -/
theorem watched_noise {env : Env} {m : Act α} (ht : Touches aside m) (hw : Writes [] m) :
    Watched env m := by
  intro w _
  have hstep : Steps (Step env anyJob) w (m.written w) := keeps_step_of_touches ht w
  have hlink : Links env m w := links_of_writes hw (by simp) (by simp) (by simp) w
  have hpost : Posts env m w := posts_of_writes hw (by simp) w
  refine ((hstep.and hlink.1).and (hpost.1.and (hw w))).mono ?_
  rintro a b ⟨⟨hstep, hlink⟩, hpost, kind, -, hwrite⟩
  exact ⟨⟨.cancel_job "" "", .step hstep⟩, hlink, hpost, kind, hwrite⟩

theorem watched_uuid4 (env : Env) : Watched env (uuid4_hex12 env) :=
  watched_noise (touches_uuid4 env) (writes_uuid4 env)

theorem watched_utcnow (env : Env) : Watched env (utcnow env) :=
  watched_noise (touches_utcnow env) (writes_utcnow env)

theorem watched_audit (env : Env) (tenant_id action : String) (details : PyDict) :
    Watched env (append_audit_log env tenant_id action details) :=
  watched_noise (touches_audit env tenant_id action details) (writes_audit env _ _ _)

/-- A read of a report. -/
theorem watched_report {env : Env} (evaluation_id tenant_id : String) :
    Watched env (get_evaluation_report_for_tenant evaluation_id tenant_id) := by
  have hkeeps : Keeps (Seen env) (get_evaluation_report_for_tenant evaluation_id tenant_id) := by
    refine keeps_bind keeps_read fun w => ?_
    split
    · exact keeps_pure _
    · exact keeps_bind (keeps_ite (keeps_raise _) (keeps_pure _)) fun _ => keeps_pure _
  exact fun w _ => hkeeps w

theorem watched_save (env : Env) : Watched env (save_state env) :=
  watched_noise (touches_save_state env) (writes_save_state env)

theorem good_last {env : Env} {written : List World} (h : Steps (Seen env) w written)
    (hw : Good env w w.store) : Good env (lastState w written) (lastState w written).store :=
  h.invariant_last (I := fun t => Good env t t.store) (fun _ _ => good_step) hw

theorem lasts_last {env : Env} {written : List World} (h : Steps (Seen env) w written) :
    Lasts w.store (lastState w written).store :=
  (h.mono fun _ _ => lasts_step).last (R := fun w w' : World => Lasts w.store w'.store)
    (fun w => Lasts.refl w.store) fun _ _ _ => Lasts.trans

/-- Go past one of the programs that a call is made of. -/
theorem past_spec {env : Env} {m : Act α} {f : α → Act β} {P : α → World → Prop}
    {Q : β → World → Prop} (hw : Good env w w.store) (hm : Meets (Seen env) m w (OnReturn P))
    (hf : ∀ a t, Good env t t.store → Lasts w.store t.store → P a t →
      Meets (Seen env) (f a) t (OnReturn Q)) : Meets (Seen env) (m >>= f) w (OnReturn Q) := by
  refine Meets.bind (P := fun r t => (Good env t t.store ∧ Lasts w.store t.store) ∧ OnReturn P r t)
    ⟨hm.1, ⟨good_last hm.1 hw, lasts_last hm.1⟩, hm.2⟩ (fun a t ht => ?_) fun _ _ _ => trivial
  exact hf a t ht.1.1 ht.1.2 ht.2

theorem past_watched {env : Env} {m : Act α} {f : α → Act β} {P : α → World → Prop}
    {Q : β → World → Prop} (hw : Good env w w.store) (hm : Watched env m) (hP : Leaves m w P)
    (hf : ∀ a t, Good env t t.store → Lasts w.store t.store → P a t →
      Meets (Seen env) (f a) t (OnReturn Q)) : Meets (Seen env) (m >>= f) w (OnReturn Q) :=
  past_spec hw ⟨hm w hw, hP.2⟩ hf

theorem leaves_any (m : Act α) (w : World) : Leaves m w fun _ _ => True :=
  ⟨keeps_true m w, by cases m.result w <;> trivial⟩

/-! ## One replay -/

/-- What a replay says of its jobs. -/
structure Replayed (data : ReplayData) (s : Store) : Prop where
  parse : ∃ job, s.jobs.get? data.parse_job_id = some job ∧ job.job_type = .parse ∧
    job.tenant_id = data.tenant_id ∧ (Terminal data.parse_status → job.status = data.parse_status)
  evaluation : MadeFor data.tenant_id .evaluation data.evaluation_id data.evaluation_job_id s
  resume : ∀ job_id, data.resume_job_id = some job_id →
    MadeFor data.tenant_id .resume data.evaluation_id job_id s
  passed : data.passed = true → data.parse_status = .succeeded

theorem Replayed.lasts {data : ReplayData} (h : Replayed data s) (hst : Lasts s t) :
    Replayed data t := by
  refine ⟨?_, h.evaluation.lasts hst, fun id hid => (h.resume id hid).lasts hst, h.passed⟩
  obtain ⟨job, hjob, htype, htenant, hend⟩ := h.parse
  obtain ⟨job', hjob', hwork, hstatus⟩ := hst.jobs _ job hjob
  refine ⟨job', hjob', hwork.job_type.trans htype, hwork.tenant_id.trans htenant,
    fun hterminal => ?_⟩
  have hsame := hend hterminal
  exact (hstatus (hsame ▸ hterminal)).trans hsame

section replay

variable {env : ReleaseEnv}

theorem watched_run (job_id tenant_id : String) :
    Watched env.toEnv (run_job_once env.toEnv job_id tenant_id RunFlags.default) :=
  watched_op (.run_job_once job_id tenant_id RunFlags.default) rfl

/-- A name is the one of its draw. -/
theorem leaves_name (w : World) :
    Leaves (uuid4_hex12 env.toEnv) w fun hex _ => hex = env.uuid4.hex12 w.draws := by
  have hspec : Meets (Step env.toEnv anyJob) (uuid4_hex12 env.toEnv) w _ := uuid4_hex12.spec w
  refine (meets_any hspec).post ?_
  rintro r t ⟨rfl, -⟩
  rfl

/-- The parse job of a replay, at the end of its run. -/
def Parsed (args : ReplayArgs) (parsed : String × JobStatus) (s : Store) : Prop :=
  ∃ job, s.jobs.get? parsed.1 = some job ∧ job.job_type = .parse ∧ job.tenant_id = args.tenant_id ∧
    job.status = parsed.2

theorem run_upload.spec (hw : Good env.toEnv w w.store) (args : ReplayArgs) {document_id : String}
    {job_id : Option String}
    (hmade : ∀ id, job_id = some id → MadeFor args.tenant_id .parse document_id id w.store) :
    Meets (Seen env.toEnv) (run_upload env args job_id) w
      (OnReturn fun parsed t => Parsed args parsed t.store) := by
  cases job_id with
  | none => exact meets_raise.2 trivial
  | some job_id =>
    refine past_watched hw (watched_run job_id args.tenant_id)
      (run_job_once.ends hw.named job_id args.tenant_id RunFlags.default)
      fun result t _ hlasts hend => meets_pure.2 ?_
    obtain ⟨job, hjob, htenant, htype, -⟩ := (hmade job_id rfl).lasts hlasts
    obtain ⟨job', hjob', hstatus⟩ := hend
    cases hjob.symm.trans hjob'
    exact ⟨job, hjob, htype, htenant, hstatus⟩

theorem auto_resume.spec (hw : Good env.toEnv w w.store) (args : ReplayArgs)
    (evaluation_id : String) (token : Option String) :
    Meets (Seen env.toEnv) (auto_resume env args evaluation_id token) w (OnReturn fun resumed t =>
      ∀ job_id, resumed = some job_id →
        MadeFor args.tenant_id .resume evaluation_id job_id t.store) := by
  cases token with
  | none =>
    refine meets_pure.2 ?_
    rintro job_id ⟨⟩
  | some token =>
    have hconsume : Watched env.toEnv
        (consume_resume_token env.toEnv evaluation_id token args.tenant_id) :=
      watched_op (.consume_resume_token evaluation_id token args.tenant_id) rfl
    have hcreate : Watched env.toEnv
        (create_resume_job env.toEnv evaluation_id (replay_resume args)) :=
      watched_op (.create_resume_job evaluation_id (replay_resume args)) rfl
    refine past_watched hw hconsume (leaves_any _ w) fun consumed t₁ h₁ _ _ =>
      meets_ite.2 ⟨fun _ => ?_, fun _ => meets_pure.2 ?_⟩
    · refine past_watched h₁ hcreate
        (create_resume_job.makes env.toEnv evaluation_id (replay_resume args) t₁)
        fun resume_job_id t₂ h₂ _ hmade => ?_
      refine past_watched h₂ (watched_run resume_job_id args.tenant_id) (leaves_any _ t₂)
        fun _ t₃ _ hlasts _ => meets_pure.2 ?_
      rintro _ ⟨⟩
      exact hmade.lasts hlasts
    · rintro job_id ⟨⟩

/-- A replay that returns says what is so of its jobs, under a new name. -/
theorem replay.spec (args : ReplayArgs) (hw : Good env.toEnv w w.store) :
    Meets (Seen env.toEnv) (replay env args) w (OnReturn fun data t => Replayed data t.store ∧
      data.replay_run_id = "rpy_" ++ env.uuid4.hex12 w.draws) := by
  have hsum : Watched env.toEnv (uuid4_hex env) :=
    watched_noise (keeps_bind touches_draw fun _ => keeps_pure _)
      (keeps_bind writes_draw fun _ => keeps_pure _)
  refine past_watched hw (watched_uuid4 env.toEnv) (leaves_name w) fun hex t₁ h₁ _ heq => ?_
  refine past_watched h₁ hsum (leaves_any _ t₁) fun file_sha256 t₂ h₂ _ _ => ?_
  refine past_watched h₂ (watched_op (.upload (replay_upload args file_sha256) false) rfl)
    (create_upload_job.makes h₂.named h₂.drawn (replay_upload args file_sha256) false)
    fun upload t₃ h₃ _ hmade => ?_
  refine past_spec h₃ (run_upload.spec h₃ args hmade) fun parsed t₄ h₄ _ hparsed => ?_
  refine past_watched h₄ (watched_op (.create_evaluation_job (replay_evaluation args)) rfl)
    (create_evaluation_job.makes env.toEnv (replay_evaluation args) t₄)
    fun ids t₅ h₅ hlasts₅ hevaluation => ?_
  refine past_watched h₅ (watched_report ids.1 args.tenant_id) (leaves_any _ t₅)
    fun report t₆ h₆ hlasts₆ _ => ?_
  refine past_spec h₆ (auto_resume.spec h₆ args ids.1 _) fun resumed t₇ h₇ hlasts₇ hresumed => ?_
  refine past_watched h₇ (watched_report ids.1 args.tenant_id) (leaves_any _ t₇)
    fun final_report t₈ _ hlasts₈ _ => meets_pure.2 ⟨?_, by rw [heq]⟩
  have hlasts := (hlasts₆.trans hlasts₇).trans hlasts₈
  refine ⟨?_, hevaluation.lasts hlasts, fun id hid => (hresumed id hid).lasts hlasts₈,
    fun hpassed => ?_⟩
  · obtain ⟨job, hjob, htype, htenant, hstatus⟩ := hparsed
    obtain ⟨job', hjob', hwork, hend⟩ := (hlasts₅.trans hlasts).jobs _ job hjob
    refine ⟨job', hjob', hwork.job_type.trans htype, hwork.tenant_id.trans htenant,
      fun hterminal => ?_⟩
    exact (hend (hstatus ▸ hterminal)).trans hstatus
  · exact (of_decide_eq_true hpassed).1

end replay

end bid_evaluation.replay_steps
