-- The laws of a resume request. The route consumes the token, creates the
-- job and archives the report again, in this order, and takes nothing back:
-- an object storage that raises leaves a used token and a queued job.
import BidEvaluation.ReviewLaws
import BidEvaluation.Routes
import BidEvaluation.TokenLaws

open dict_lib stepwise once_lib bid_evaluation.values bid_evaluation.core
  bid_evaluation.store_ops bid_evaluation.store_workflow bid_evaluation.operations
  bid_evaluation.frames bid_evaluation.job_steps bid_evaluation.run_steps
  bid_evaluation.op_steps bid_evaluation.endings bid_evaluation.review_laws
  bid_evaluation.token_laws bid_evaluation.routes

namespace bid_evaluation.resume_laws

variable {env : Env} {w : World}

/-! ## The archive -/

/-- The object storage takes the next object, and the hold on it. -/
def PutTakes (env : Env) (w : World) (tenant_id object_type object_id : String) : Prop :=
  (∃ uri, env.put_object w.draws = .ok uri) ∧
    ∀ hold, find_active_legal_hold w.store tenant_id object_type object_id = some hold →
      ∃ u, env.apply_legal_hold (w.draws + 1) = .ok u

theorem PutTakes.congr {w' : World} {tenant_id object_type object_id : String}
    (hdraws : w'.draws = w.draws)
    (hholds : w'.store.legal_hold_objects = w.store.legal_hold_objects) :
    PutTakes env w' tenant_id object_type object_id ↔
      PutTakes env w tenant_id object_type object_id := by
  unfold PutTakes find_active_legal_hold
  rw [hdraws, hholds]

theorem put_held_object.returns (tenant_id object_type object_id : String) (w : World) :
    Meets AnyStep (put_held_object env tenant_id object_type object_id) w (fun r _ =>
      (∃ uri, r = .ok uri) ↔ PutTakes env w tenant_id object_type object_id) := by
  unfold put_held_object PutTakes
  refine (draw.reads w).bind ?_ (by rintro e t ⟨he, -⟩; cases he)
  rintro n t ⟨hn, rfl⟩
  cases hn
  rw [meets_bind, meets_lift]
  rcases hput : env.put_object w.draws with e | uri
  · simp
  · rw [then_ok, meets_bind, meets_read, then_ok]
    dsimp only
    rcases hhold : find_active_legal_hold w.store tenant_id object_type object_id with _ | hold
    · simp
    · unfold update
      rw [meets_bind, meets_write]
      refine ⟨trivial, ?_⟩
      rw [then_ok]
      refine (draw.reads _).bind ?_ (by rintro e t ⟨he, -⟩; cases he)
      rintro n t ⟨hn, rfl⟩
      cases hn
      rw [meets_bind, meets_lift]
      rcases happly : env.apply_legal_hold (w.draws + 1) with e | u
      · simp
      · simp

theorem persist_report.returns (report : EvaluationReport) (w : World) :
    Meets AnyStep (persist_evaluation_report env report) w (fun r _ =>
      (∃ u, r = .ok u) ↔ report.evaluation_id = "" ∨
        PutTakes env w report.tenant_id "report" report.evaluation_id) := by
  unfold persist_evaluation_report archive_report_to_object_storage
  by_cases hid : report.evaluation_id = ""
  · rw [if_pos hid, meets_bind, meets_pure, then_ok]
    unfold update
    rw [meets_write]
    exact ⟨trivial, by simp [hid]⟩
  · rw [if_neg hid]
    simp only [meets_bind, hid, false_or]
    refine (put_held_object.returns report.tenant_id "report" report.evaluation_id w).post ?_
    rintro (e | uri) t hput
    · simpa using hput
    · simpa [update] using hput

/-! ## The job -/

/-- The report of the evaluation can be archived again. -/
def ReportTakes (env : Env) (w : World) (evaluation_id tenant_id : String) : Prop :=
  ∀ report, get_report w.store evaluation_id tenant_id = some report →
    report.evaluation_id = "" ∨
      PutTakes env { w with draws := w.draws + (if report.thread_id = "" then 2 else 1) }
        report.tenant_id "report" report.evaluation_id

/-- What a resume job changes. The tokens are not among it. -/
def resumeParts : List Part := [.jobs, .reports, .outbox]

theorem touches_create_resume_job (env : Env) (evaluation_id : String) (payload : ResumePayload) :
    Touches resumeParts (create_resume_job env evaluation_id payload) := by
  unfold create_resume_job
  refine touches_saving (keeps_bind (touches_uuid4 env) fun hex =>
    keeps_bind keeps_read fun w => ?_)
  refine keeps_bind (touches_resume_thread env _) fun thread_id => ?_
  refine keeps_bind (touches_persist_job (by simp [resumeParts]) _) fun job => ?_
  refine keeps_bind (touches_clear_review env (by simp [resumeParts]) _) fun _ => ?_
  refine keeps_bind (touches_audit env _ _ _) fun _ => ?_
  exact keeps_bind (touches_outbox env (by simp [resumeParts]) _ _ _ _ _) fun _ => keeps_pure _

theorem resume_thread.reads (report : Option EvaluationReport) (w : World) :
    Meets AnyStep (resume_thread_id env report) w (fun r t => (∃ thread_id, r = .ok thread_id) ∧
      t = { w with draws := w.draws + (if (report.map (fun r => r.thread_id)).getD "" = "" then 1
        else 0) }) := by
  unfold resume_thread_id
  dsimp only
  by_cases hempty : (report.map (fun r => r.thread_id)).getD "" = ""
  · rw [if_pos hempty, if_pos hempty]
    unfold new_thread_id
    refine (draw.reads w).bind ?_ (by rintro e t ⟨he, -⟩; cases he)
    rintro n t ⟨-, rfl⟩
    rw [meets_pure]
    exact ⟨⟨_, rfl⟩, rfl⟩
  · rw [if_neg hempty, if_neg hempty, meets_pure]
    exact ⟨⟨_, rfl⟩, rfl⟩

theorem clear_review.returns (report : Option EvaluationReport) (w : World) :
    Meets AnyStep (clear_review env report) w (fun r _ => (∃ u, r = .ok u) ↔
      ∀ found, report = some found → found.evaluation_id = "" ∨
        PutTakes env w found.tenant_id "report" found.evaluation_id) := by
  unfold clear_review
  cases report with
  | none =>
    dsimp only
    rw [meets_pure]
    simp
  | some found =>
    refine (persist_report.returns _ w).post ?_
    intro r t h
    rw [h]
    simp

theorem returns_audit (env : Env) (tenant_id action : String) (details : PyDict) :
    Returns (append_audit_log env tenant_id action details) :=
  returns_bind (returns_uuid4 env) fun _ => returns_bind (returns_utcnow env) fun _ =>
    returns_write _

theorem returns_announce (env : Env)
    (tenant_id job_id job_type resource_type resource_id : String) :
    Returns (announce_job env tenant_id job_id job_type resource_type resource_id) :=
  returns_saving (returns_bind (returns_uuid4 env) fun _ => returns_bind (returns_utcnow env)
    fun _ => returns_bind (returns_write _) fun _ => returns_pure _)

theorem persist_job.puts (job : Job) (w : World) :
    Meets AnyStep (persist_job job) w (fun r t => r = .ok job ∧
      t = { w with store := { w.store with jobs := w.store.jobs.put job } }) := by
  simp only [persist_job, update, meets_bind, meets_write, any_step, then_ok, meets_pure, and_self]

/-- The job of a resume, as it is stored before the report is cleared. -/
structure ResumeJob (evaluation_id : String) (payload : ResumePayload) (w t : World) (job : Job) :
    Prop where
  job_type : job.job_type = .resume
  resource_id : job.resource_id = evaluation_id
  carries : job.payload = .resume payload
  jobs : t.store.jobs = w.store.jobs.put job
  holds : t.store.legal_hold_objects = w.store.legal_hold_objects
  draws : t.draws = w.draws + 1 +
    (if ((get_report w.store evaluation_id payload.tenant_id).map (fun r => r.thread_id)).getD "" =
      "" then 1 else 0)
  frame : Frame [.jobs] w t

/-- What holds of a returned value after any later change of the parts. -/
def Settles (K : List Part) (Q : Except PyErr α → World → Prop) : Except PyErr α → World → Prop
  | .ok a, t => ∀ t', Frame K t t' → Q (.ok a) t'
  | .error e, t => Q (.error e) t

/-- A resume job is made by its write, and then the report is cleared. All
that comes after that returns, and only writes an event. -/
theorem create_resume_job.walk {Q : Except PyErr String → World → Prop} (evaluation_id : String)
    (payload : ResumePayload) (w : World)
    (hclear : ∀ job t, ResumeJob evaluation_id payload w t job →
      Meets AnyStep (clear_review env (get_report w.store evaluation_id payload.tenant_id)) t
        (fun r t' => Settles [.outbox] Q (r.map (fun _ => job.job_id)) t')) :
    Meets AnyStep (create_resume_job env evaluation_id payload) w Q := by
  have hsaved : Meets AnyStep (create_resume_job env evaluation_id payload) w
      (Settles [.outbox] Q) := by
    unfold create_resume_job
    refine any_saving ?_ ?_
    · refine (uuid4.reads w).bind ?_ (by rintro e t ⟨⟨hex, he⟩, -⟩; cases he)
      rintro hex t ⟨-, rfl⟩
      rw [meets_bind, meets_read, then_ok]
      refine (resume_thread.reads _ _).bind ?_ (by rintro e t ⟨⟨thread_id, he⟩, -⟩; cases he)
      rintro thread_id t ⟨-, rfl⟩
      refine (persist_job.puts _ _).bind ?_ (by rintro e t ⟨he, -⟩; cases he)
      rintro job t ⟨hjob, ht⟩
      have hmade : ResumeJob evaluation_id payload w t job := by
        cases hjob
        subst ht
        refine ⟨rfl, rfl, rfl, rfl, rfl, rfl, fun p hp => ?_, ?_⟩
        · cases p <;> first | rfl | exact absurd List.mem_cons_self hp
        · show w.draws ≤ w.draws + 1 + _
          omega
      refine (hclear job t hmade).bind ?_ ?_
      · intro u t₁ hsettles
        refine past_return (K := []) (touches_audit env _ _ _) (returns_audit env _ _ _)
          fun _ t₂ hf₂ => ?_
        refine past_return (K := [.outbox]) (touches_outbox env (by simp) _ _ _ _ _)
          (returns_announce env _ _ _ _ _) fun _ t₃ hf₃ => ?_
        rw [meets_pure]
        intro t₄ hf₄
        exact hsettles t₄ (((hf₂.mono (by simp)).trans hf₃).trans hf₄)
      · intro e t₁ hsettles
        exact hsettles
    · intro job_id t t' hsettles hf t'' hf'
      exact hsettles t'' ((hf.mono (by simp)).trans hf')
  refine hsaved.post ?_
  intro r t hsettles
  cases r with
  | ok job_id => exact hsettles t (Frame.refl t)
  | error e => exact hsettles

/-- Only the archive can fail. -/
theorem create_resume_job.returns (evaluation_id : String) (payload : ResumePayload) (w : World) :
    Meets AnyStep (create_resume_job env evaluation_id payload) w (fun r _ =>
      (∃ job_id, r = .ok job_id) ↔ ReportTakes env w evaluation_id payload.tenant_id) := by
  apply create_resume_job.walk
  intro job t hjob
  refine (clear_review.returns _ _).post ?_
  intro r t' hclear
  have hreturns : (∃ u, r = .ok u) ↔ ReportTakes env w evaluation_id payload.tenant_id := by
    rw [hclear]
    unfold ReportTakes
    refine forall_congr' fun report => imp_congr_right fun hreport => or_congr_right ?_
    apply PutTakes.congr
    · rw [hjob.draws, hreport, Option.map_some, Option.getD_some]
      show w.draws + 1 + _ = w.draws + _
      split <;> rfl
    · exact hjob.holds
  cases r with
  | ok u =>
    intro t'' _
    rw [← hreturns]
    simp
  | error e =>
    show (∃ job_id, Except.error e = .ok job_id) ↔ _
    rw [← hreturns]
    simp

/-! ## The request -/

theorem ReportTakes.congr {w' : World} {evaluation_id tenant_id : String}
    (hdraws : w'.draws = w.draws)
    (hreports : w'.store.evaluation_reports = w.store.evaluation_reports)
    (hholds : w'.store.legal_hold_objects = w.store.legal_hold_objects) :
    ReportTakes env w' evaluation_id tenant_id ↔ ReportTakes env w evaluation_id tenant_id := by
  unfold ReportTakes get_report
  rw [hreports]
  refine forall_congr' fun report => imp_congr_right fun _ => or_congr_right ?_
  apply PutTakes.congr
  · rw [hdraws]
  · exact hholds

/-- How the execution of a resume ends: nothing has changed, or the token is
used and the archive decides. -/
theorem execute_resume.ends (env : Env) (evaluation_id resume_token : String)
    (payload : ResumePayload) (w : World) :
    Meets AnyStep (execute_resume env evaluation_id resume_token payload) w (fun r t =>
      (¬ (∃ record, Accepts env w evaluation_id resume_token payload.tenant_id record) ∧
        (∃ e, r = .error e) ∧ t.store = w.store) ∨
      ∃ record, Accepts env w evaluation_id resume_token payload.tenant_id record ∧
        (∃ used, t.store.resume_tokens.get? evaluation_id = some used ∧ used.used = true) ∧
        ((∃ job_id, r = .ok job_id) ↔
          ReportTakes env { w with draws := w.draws + 2 } evaluation_id payload.tenant_id)) := by
  unfold execute_resume
  refine (consume.spec env evaluation_id resume_token payload.tenant_id w).bind ?_ ?_
  · intro consumed t h
    rw [meets_ite]
    constructor
    · rintro rfl
      rcases h with ⟨hno, -⟩ | ⟨-, hdraws, record, haccepts, hstore⟩
      · exact absurd rfl hno
      · have hframe := ends_touches (touches_create_resume_job env evaluation_id payload) t
        refine ((create_resume_job.returns evaluation_id payload t).and hframe).post ?_
        rintro r t' ⟨hreturns, hf⟩
        refine .inr ⟨record, haccepts, ?_, ?_⟩
        · have htokens : t'.store.resume_tokens = t.store.resume_tokens :=
            hf.same .tokens (by simp [resumeParts])
          rw [htokens, hstore]
          exact ⟨_, Dict.get?_set_self _ _ _, rfl⟩
        · rw [hreturns]
          apply ReportTakes.congr
          · exact hdraws
          · rw [hstore]
            rfl
          · rw [hstore]
            rfl
    · intro hfalse
      rcases h with ⟨-, hstore, hno⟩ | ⟨htrue, -⟩
      · unfold raise_api
        rw [meets_raise]
        exact .inl ⟨hno, ⟨_, rfl⟩, hstore⟩
      · exact absurd (Except.ok.inj htrue) hfalse
  · rintro e t (⟨-, hstore, hno⟩ | ⟨htrue, -⟩)
    · exact .inl ⟨hno, ⟨e, rfl⟩, hstore⟩
    · cases htrue

/-- The request passes every check of the route, and its token is good. -/
structure Acceptable (env : Env) (strict : Bool) (client : Client) (evaluation_id : String)
    (request : ResumeRequest) (trace : Trace) (s : Api) : Prop where
  trace : ∃ trace_id, add_trace_id strict trace = .ok trace_id
  key : ∃ key, require_idempotency_key client = .ok key ∧
    s.records.get? (idempotency_scope client.tenant_id (resume_endpoint evaluation_id), key) = none
  reviewer : require_reviewer request = .ok ()
  token : ∃ record,
    Accepts env s.rest evaluation_id request.resume_token client.tenant_id record

/-- What a failed request must not change. -/
structure Untouched (evaluation_id : String) (w t : World) : Prop where
  token : t.store.resume_tokens.get? evaluation_id = w.store.resume_tokens.get? evaluation_id
  jobs : t.store.jobs = w.store.jobs
  events : t.store.domain_events_outbox = w.store.domain_events_outbox
  report : t.store.evaluation_reports.get? evaluation_id =
    w.store.evaluation_reports.get? evaluation_id

theorem untouched_of_store {evaluation_id : String} {t : World} (h : t.store = w.store) :
    Untouched evaluation_id w t := by
  constructor <;> rw [h]

/-- If the request fails it has touched nothing, and if it was acceptable it
can succeed later. -/
def AllOrNothing (env : Env) (strict : Bool) (client : Client) (evaluation_id : String)
    (request : ResumeRequest) (trace : Trace) (s : Api) : Prop :=
  ∀ e, (resume_evaluation env strict client evaluation_id request trace).result s = .error e →
    Untouched evaluation_id s.rest
      ((resume_evaluation env strict client evaluation_id request trace).final s).rest ∧
    (Acceptable env strict client evaluation_id request trace s →
      ∃ env' data, (resume_evaluation env' strict client evaluation_id request trace).result
        ((resume_evaluation env strict client evaluation_id request trace).final s) = .ok data)

theorem data_of_execute (env : Env) (evaluation_id : String) (request : ResumeRequest)
    (trace_id tenant_id : String) (w : World) :
    (resume_data env evaluation_id request trace_id tenant_id).final w =
        (execute_resume env evaluation_id request.resume_token
          (resume_payload request trace_id tenant_id)).final w ∧
      ((∃ data, (resume_data env evaluation_id request trace_id tenant_id).result w = .ok data) ↔
        ∃ job_id, (execute_resume env evaluation_id request.resume_token
          (resume_payload request trace_id tenant_id)).result w = .ok job_id) := by
  unfold resume_data
  refine ⟨final_bind_pure _, ?_⟩
  rcases hresult : (execute_resume env evaluation_id request.resume_token
    (resume_payload request trace_id tenant_id)).result w with e | job_id
  · rw [result_bind_error hresult]
    simp
  · rw [result_bind hresult]
    exact ⟨fun _ => ⟨job_id, rfl⟩, fun _ => ⟨_, rfl⟩⟩

/-- The idempotent call that the route makes when its checks have passed. -/
def resume_call (env : Env) (client : Client) (evaluation_id : String) (request : ResumeRequest)
    (trace_id idempotency_key : String) : Serve :=
  run_idempotent env (resume_endpoint evaluation_id) client.tenant_id idempotency_key
    (resume_dict request) (resume_data env evaluation_id request trace_id client.tenant_id)

theorem past_checks {strict : Bool} {client : Client} {request : ResumeRequest} {trace : Trace}
    {trace_id key : String} (env : Env) (evaluation_id : String) (s : Api)
    (htrace : add_trace_id strict trace = .ok trace_id)
    (hkey : require_idempotency_key client = .ok key)
    (hreviewer : require_reviewer request = .ok ()) :
    (resume_evaluation env strict client evaluation_id request trace).result s =
        (resume_call env client evaluation_id request trace_id key).result s ∧
      (resume_evaluation env strict client evaluation_id request trace).final s =
        (resume_call env client evaluation_id request trace_id key).final s := by
  unfold resume_evaluation
  rw [htrace, hkey, hreviewer]
  exact ⟨rfl, rfl⟩

/-- The call of a free key ends as its execution does. -/
theorem free_call {client : Client} {evaluation_id key : String} {s : Api} (env : Env)
    (request : ResumeRequest) (trace_id : String)
    (hfree : s.records.get?
      (idempotency_scope client.tenant_id (resume_endpoint evaluation_id), key) = none) :
    ((∃ data, (resume_call env client evaluation_id request trace_id key).result s = .ok data) ↔
      ∃ job_id, (execute_resume env evaluation_id request.resume_token
        (resume_payload request trace_id client.tenant_id)).result s.rest = .ok job_id) ∧
    ((resume_call env client evaluation_id request trace_id key).final s).rest =
      (execute_resume env evaluation_id request.resume_token
        (resume_payload request trace_id client.tenant_id)).final s.rest := by
  obtain ⟨hfinal, hresult⟩ := data_of_execute env evaluation_id request trace_id
    client.tenant_id s.rest
  unfold resume_call run_idempotent
  rw [← hfinal, ← hresult]
  rcases hend : (resume_data env evaluation_id request trace_id client.tenant_id).result s.rest
    with e | data
  · obtain ⟨hr, hf⟩ := once_raised idempotency_conflict
      (fingerprint env (resume_dict request)) hfree hend
    rw [hr, hf]
    exact ⟨by simp, rfl⟩
  · obtain ⟨hr, hf⟩ := once_returned idempotency_conflict
      (fingerprint env (resume_dict request)) hfree hend
    rw [hr, hf]
    exact ⟨⟨fun _ => ⟨data, rfl⟩, fun _ => ⟨data, rfl⟩⟩, rfl⟩

theorem acceptable_request.ends {strict : Bool} {client : Client} {evaluation_id : String}
    {request : ResumeRequest} {trace : Trace} {s : Api}
    (h : Acceptable env strict client evaluation_id request trace s) :
    ((∃ data, (resume_evaluation env strict client evaluation_id request trace).result s =
        .ok data) ↔
      ReportTakes env { s.rest with draws := s.rest.draws + 2 } evaluation_id client.tenant_id) ∧
    ¬ Untouched evaluation_id s.rest
      ((resume_evaluation env strict client evaluation_id request trace).final s).rest := by
  obtain ⟨trace_id, htrace⟩ := h.trace
  obtain ⟨key, hkey, hfree⟩ := h.key
  obtain ⟨hresult, hfinal⟩ := past_checks env evaluation_id s htrace hkey h.reviewer
  obtain ⟨hok, hrest⟩ := free_call env request trace_id hfree
  rw [hresult, hfinal, hok, hrest]
  rcases (execute_resume.ends env evaluation_id request.resume_token
    (resume_payload request trace_id client.tenant_id) s.rest).2 with ⟨hno, -⟩ |
      ⟨record, haccepts, ⟨used, hused, htrue⟩, hreturns⟩
  · exact absurd h.token hno
  · refine ⟨hreturns, ?_⟩
    intro huntouched
    have hsame := huntouched.token
    rw [hused, haccepts.found] at hsame
    cases hsame
    exact absurd (haccepts.unused.symm.trans htrue) (by simp)

theorem unacceptable_request.ends {strict : Bool} {client : Client} {evaluation_id : String}
    {request : ResumeRequest} {trace : Trace} {s : Api}
    (hno : ¬ Acceptable env strict client evaluation_id request trace s) :
    ((resume_evaluation env strict client evaluation_id request trace).final s).rest.store =
      s.rest.store := by
  rcases htrace : add_trace_id strict trace with e' | trace_id
  · unfold resume_evaluation
    rw [htrace]
    rfl
  rcases hkey : require_idempotency_key client with e' | key
  · unfold resume_evaluation
    rw [htrace, hkey]
    rfl
  rcases hreviewer : require_reviewer request with e' | u
  · unfold resume_evaluation
    rw [htrace, hkey, hreviewer]
    rfl
  rw [(past_checks env evaluation_id s htrace hkey hreviewer).2]
  rcases hfound : s.records.get?
    (idempotency_scope client.tenant_id (resume_endpoint evaluation_id), key) with _ | record
  · obtain ⟨-, hrest⟩ := free_call env request trace_id hfound
    rw [hrest]
    rcases (execute_resume.ends env evaluation_id request.resume_token
      (resume_payload request trace_id client.tenant_id) s.rest).2 with ⟨-, -, hstore⟩ |
        ⟨record, haccepts, -⟩
    · exact hstore
    · exact absurd ⟨⟨trace_id, htrace⟩, ⟨key, hkey, hfound⟩, hreviewer, record, haccepts⟩ hno
  · unfold resume_call run_idempotent
    by_cases hsame : record.fingerprint = fingerprint env (resume_dict request)
    · rw [(once_replayed _ _ hfound hsame).2]
    · rw [(once_refused _ _ hfound hsame).2]

/-! ## The laws -/

/-- A resume request is all or nothing exactly when it is refused before its
token is used, or the object storage takes the report again. -/
theorem resume_is_all_or_nothing_iff (env : Env) (strict : Bool) (client : Client)
    (evaluation_id : String) (request : ResumeRequest) (trace : Trace) (s : Api) :
    AllOrNothing env strict client evaluation_id request trace s ↔
      (Acceptable env strict client evaluation_id request trace s →
        ReportTakes env { s.rest with draws := s.rest.draws + 2 } evaluation_id
          client.tenant_id) := by
  constructor
  · intro h hacceptable
    obtain ⟨hreturns, htouched⟩ := acceptable_request.ends hacceptable
    rw [← hreturns]
    rcases hresult : (resume_evaluation env strict client evaluation_id request trace).result s
      with e | data
    · exact absurd (h e hresult).1 htouched
    · exact ⟨data, rfl⟩
  · intro h e he
    by_cases hacceptable : Acceptable env strict client evaluation_id request trace s
    · obtain ⟨data, hdata⟩ := (acceptable_request.ends hacceptable).1.2 (h hacceptable)
      rw [hdata] at he
      cases he
    · exact ⟨untouched_of_store (unacceptable_request.ends hacceptable),
        fun hyes => absurd hyes hacceptable⟩

/-- The object storage is down from the tenth draw on. -/
def failing_storage_env : Env :=
  { calm_env with
    put_object := fun n =>
      if n < 10 then .ok "object://" else .error (.raised "RuntimeError" "storage is down") }

def reviewer : Client := ⟨"tenant", some "key"⟩

def approval : ResumeRequest := ⟨"rt_aaaaa", "approve", "", "reviewer", []⟩

/-- The bid is registered, and waits for its reviewer. -/
def waiting_api : Api := Ledger.start (registered failing_storage_env)

/-- The object storage raises, and the token is used up. -/
theorem failed_archive_uses_the_token :
    ¬ AllOrNothing failing_storage_env false reviewer "ev_" approval ⟨none, "aa"⟩ waiting_api := by
  intro h
  have hraises : ((resume_evaluation failing_storage_env false reviewer "ev_" approval
      ⟨none, "aa"⟩).result waiting_api).isOk = false := by decide +kernel
  have hused : (((resume_evaluation failing_storage_env false reviewer "ev_" approval
      ⟨none, "aa"⟩).final waiting_api).rest.store.resume_tokens.get? "ev_").map
        (fun record => record.used) = some true := by decide +kernel
  have hunused : (waiting_api.rest.store.resume_tokens.get? "ev_").map
      (fun record => record.used) = some false := by decide +kernel
  rcases hresult : (resume_evaluation failing_storage_env false reviewer "ev_" approval
    ⟨none, "aa"⟩).result waiting_api with e | data
  · rw [(h e hresult).1.token, hunused] at hused
    cases hused
  · rw [hresult] at hraises
    cases hraises

end bid_evaluation.resume_laws
