-- The laws of the agreement between a report and its token. A flagged
-- report has the registered token as long as no call leaves it behind: a
-- second pass through the gate of the graph registers a new token and stores
-- no report, a consumption alone clears no flag, and a resume whose archive
-- raises has used the token already.
import BidEvaluation.AgreementSteps
import BidEvaluation.AnnounceLaws

open dict_lib stepwise bid_evaluation.values bid_evaluation.core bid_evaluation.store_ops
  bid_evaluation.store_workflow bid_evaluation.store_admin bid_evaluation.store_eval
  bid_evaluation.evaluation_nodes bid_evaluation.langgraph_runtime bid_evaluation.job_run
  bid_evaluation.operations bid_evaluation.frames bid_evaluation.job_steps
  bid_evaluation.run_steps bid_evaluation.op_steps bid_evaluation.endings
  bid_evaluation.job_laws bid_evaluation.announce_laws bid_evaluation.review_steps
  bid_evaluation.review_laws bid_evaluation.token_laws bid_evaluation.resume_laws
  bid_evaluation.agreement_steps

namespace bid_evaluation.agreement_laws

variable {env : Env} {w w' : World}

/-! ## Runs -/

/-- The operations on evaluations and their reviews. -/
def OnReviews : Op → Prop
  | .create_evaluation_job .. | .run_job_once .. | .consume_resume_token ..
  | .create_resume_job .. | .resume .. => True
  | _ => False

/-- The service with this runtime in its configuration. -/
def under (env : Env) (runtime : Except PyErr RuntimeMode) : Env :=
  { env with workflow_runtime := runtime }

/-- The worlds that operations on reviews reach, each allowed in the world in
which it starts. The runtime may be another one each time. -/
inductive ReviewRun (env : Env) (allowed : Env → World → Op → Prop) : World → Prop where
  | start : ReviewRun env allowed World.start
  | step {w : World} (h : ReviewRun env allowed w) (runtime : Except PyErr RuntimeMode) (op : Op)
      (hop : OnReviews op) (hallowed : allowed (under env runtime) w op) :
      ReviewRun env allowed (perform (under env runtime) w op)

/-! ## The invariant -/

theorem agrees_of_same {evaluation_id : String} (h : Agrees w evaluation_id)
    (hreport : w'.store.evaluation_reports.get? evaluation_id =
      w.store.evaluation_reports.get? evaluation_id)
    (htoken : w'.store.resume_tokens.get? evaluation_id =
      w.store.resume_tokens.get? evaluation_id) : Agrees w' evaluation_id := by
  intro report hget hneeds
  rw [hreport] at hget
  obtain ⟨interrupt, record, hinterrupt, hrecord, hrest⟩ := h report hget hneeds
  have hid : report.evaluation_id = evaluation_id := Table.key_of_get? _ hget
  refine ⟨interrupt, record, hinterrupt, ?_, hrest⟩
  rw [hid] at hrecord ⊢
  rw [htoken]
  exact hrecord

theorem flagged_of_needs {evaluation_id : String} {report : EvaluationReport}
    (hget : w.store.evaluation_reports.get? evaluation_id = some report)
    (hneeds : report.needs_human_review = true) : Flagged w evaluation_id := by
  unfold Flagged
  rw [hget]
  exact hneeds

/-- The evaluations of the jobs have names that were drawn. -/
def EvaluationsNamed (env : Env) (w : World) : Prop :=
  ∀ id job, w.store.jobs.get? id = some job → job.job_type = .evaluation →
    DrawnBefore env "ev_" w.draws job.resource_id

/-- Each evaluation has a name that was drawn, and its report agrees with its
token. -/
structure Kept (env : Env) (w : World) : Prop where
  named : Named env w
  jobs : EvaluationsNamed env w
  reports : ∀ id report, w.store.evaluation_reports.get? id = some report →
    DrawnBefore env "ev_" w.draws id
  tokens : ∀ id record, w.store.resume_tokens.get? id = some record →
    DrawnBefore env "ev_" w.draws id
  waiting : ∀ id, Waiting w id → DrawnBefore env "ev_" w.draws id
  agrees : ∀ id, Agrees w id

theorem kept_start : Kept env World.start := by
  refine ⟨named_start, ?_, ?_, ?_, ?_, ?_⟩
  · intro id job hjob
    cases hjob
  · intro id report hreport
    cases hreport
  · intro id record hrecord
    cases hrecord
  · rintro id ⟨thread_id, state, hwaiting, -⟩
    cases hwaiting
  · intro id report hreport
    cases hreport

/-- The runtime has no part in the names. -/
theorem kept_under (runtime : Except PyErr RuntimeMode) :
    Kept (under env runtime) w ↔ Kept env w :=
  ⟨fun h => ⟨⟨h.named.jobs, h.named.dlq, h.named.outbox⟩, h.jobs, h.reports, h.tokens, h.waiting,
      h.agrees⟩,
    fun h => ⟨⟨h.named.jobs, h.named.dlq, h.named.outbox⟩, h.jobs, h.reports, h.tokens, h.waiting,
      h.agrees⟩⟩

/-- A call that rules on one known evaluation keeps all of them in agreement,
if it replaces the token only where no flag is left behind. -/
theorem Kept.reviewed (h : Kept env w) (hn : Named env w') (hdraws : w.draws ≤ w'.draws)
    (hjobs : EvaluationsNamed env w')
    (hreviews : Reviews (DrawnBefore env "ev_" w'.draws)
      (fun e => ¬ Flagged w e ∨ ¬ Flagged w' e) w w') : Kept env w' := by
  cases hreviews with
  | quiet hreports htokens hwaiting =>
    refine ⟨hn, hjobs, ?_, ?_, ?_, ?_⟩
    · intro id report hget
      rw [hreports] at hget
      exact (h.reports id report hget).mono hdraws
    · intro id record hget
      rw [htokens] at hget
      exact (h.tokens id record hget).mono hdraws
    · intro id hid
      unfold Waiting at hid
      rw [hwaiting] at hid
      exact (h.waiting id hid).mono hdraws
    · intro id
      exact agrees_of_same (h.agrees id) (by rw [hreports]) (by rw [htokens])
  | ruled e he hruled htokens =>
    refine ⟨hn, hjobs, ?_, ?_, ?_, ?_⟩
    · intro id report hget
      by_cases hid : id = e
      · exact hid ▸ he
      · rw [hruled.only.reports id hid] at hget
        exact (h.reports id report hget).mono hdraws
    · intro id record hget
      by_cases hid : id = e
      · exact hid ▸ he
      · rw [hruled.only.tokens id hid] at hget
        exact (h.tokens id record hget).mono hdraws
    · rintro id ⟨thread_id, state, hstate, rfl⟩
      rcases hruled.only.waiting thread_id state hstate with hold | hid
      · exact (h.waiting _ ⟨thread_id, state, hold, rfl⟩).mono hdraws
      · exact hid ▸ he
    · intro id
      by_cases hid : id = e
      · subst hid
        rcases hruled.report with hsame | ⟨report, hreport, hflag⟩
        · rcases htokens with htokens | hbefore | hafter
          · exact agrees_of_same (h.agrees id) hsame (by rw [htokens])
          · intro report hget hneeds
            rw [hsame] at hget
            exact absurd (flagged_of_needs hget hneeds) hbefore
          · intro report hget hneeds
            exact absurd (flagged_of_needs hget hneeds) hafter
        · intro found hget hneeds
          rw [hreport] at hget
          cases hget
          exact (hflag hneeds).2
      · exact agrees_of_same (h.agrees id) (hruled.only.reports id hid) (hruled.only.tokens id hid)

/-! ## The names after an operation -/

theorem draws_grow (hn : Named env w) (op : Op) : w.draws ≤ (perform env w op).draws := by
  refine (steps_of_op any_new any_free hn op (permits_any op)).invariant_last
    (I := fun t => w.draws ≤ t.draws) ?_ (Nat.le_refl _)
  intro a b hstep ha
  cases hstep with
  | step hstep => exact Nat.le_trans ha hstep.draws
  | cancelled job_id tenant_id hop hstep =>
    obtain ⟨_, -, -, -, -, rfl⟩ := hstep
    exact ha

theorem evaluations_named_of_same (h : EvaluationsNamed env w)
    (hjobs : w'.store.jobs = w.store.jobs) (hdraws : w.draws ≤ w'.draws) :
    EvaluationsNamed env w' := by
  intro id job hjob htype
  rw [hjobs] at hjob
  exact (h id job hjob htype).mono hdraws

theorem evaluations_named_of_put {job : Job} (h : EvaluationsNamed env w)
    (hjobs : w'.store.jobs = w.store.jobs.put job) (hdraws : w.draws ≤ w'.draws)
    (hjob : job.job_type = .evaluation → DrawnBefore env "ev_" w'.draws job.resource_id) :
    EvaluationsNamed env w' := by
  intro id found hfound htype
  rw [hjobs, Table.get?_put] at hfound
  split at hfound
  · cases hfound
    exact hjob htype
  · exact (h id found hfound htype).mono hdraws

theorem evaluations_named_new {kind : Job → Prop} (h : EvaluationsNamed env w)
    (hnew : NewJob kind w w') (hdraws : w.draws ≤ w'.draws)
    (hkind : ∀ job, kind job → job.job_type = .evaluation →
      DrawnBefore env "ev_" w'.draws job.resource_id) : EvaluationsNamed env w' := by
  rcases hnew with hsame | ⟨job, hjobs, hjob⟩
  · exact evaluations_named_of_same h hsame hdraws
  · exact evaluations_named_of_put h hjobs hdraws (hkind job hjob)

/-- No write of a run makes a job, and none changes what a job is about. -/
theorem evaluations_named_step (hstep : Step env noQueued w w') (h : EvaluationsNamed env w) :
    EvaluationsNamed env w' := by
  have hkeeps : ∀ job job', w.store.jobs.get? job.job_id = some job → SameJob job job' →
      job'.job_type = .evaluation → DrawnBefore env "ev_" w'.draws job'.resource_id := by
    intro job job' hjob hsame htype
    rw [hsame.resource_id]
    exact (h _ job hjob (hsame.job_type.symm.trans htype)).mono hstep.draws
  cases hstep.jobs with
  | same hsame => exact evaluations_named_of_same h hsame hstep.draws
  | created job hid hnew hqueued hguard hjobs => exact absurd hqueued hguard
  | noted job job' hjob hsame hstatus hjobs =>
    exact evaluations_named_of_put h hjobs hstep.draws (hkeeps job job' hjob hsame)
  | moved job job' hjob hsame hedge hguard hjobs =>
    exact evaluations_named_of_put h hjobs hstep.draws (hkeeps job job' hjob hsame)

/-! ## One operation -/

/-- The operation leaves no flag behind. A run does not send an evaluation to
a review whose report is still flagged. A consumption alone uses no token of
a flagged report. A resume that does is able to archive the cleared one. -/
def LeavesNoFlag (env : Env) (w : World) : Op → Prop
  | .run_job_once job_id tenant_id flags => ToldToFail flags ∨
      ∀ e, (run_decision env job_id tenant_id).result w = .ok (some e) → ¬ Flagged w e
  | .consume_resume_token evaluation_id resume_token tenant_id => Flagged w evaluation_id →
      ¬ ∃ record, Accepts env w evaluation_id resume_token tenant_id record
  | .resume evaluation_id resume_token payload => Flagged w evaluation_id →
      (∃ record, Accepts env w evaluation_id resume_token payload.tenant_id record) →
        ReportTakes env { w with draws := w.draws + 2 } evaluation_id payload.tenant_id
  | _ => True

theorem kept_perform_quiet (h : Kept env w) (op : Op) (m : Act α) (hact : op.act env = quiet m)
    (hjobs : w.draws ≤ (m.final w).draws → EvaluationsNamed env (m.final w))
    (hreviews : w.draws ≤ (m.final w).draws →
      Reviews (DrawnBefore env "ev_" (m.final w).draws)
        (fun e => ¬ Flagged w e ∨ ¬ Flagged (m.final w) e) w (m.final w)) :
    Kept env (perform env w op) := by
  have hn : Named env (perform env w op) :=
    named_perform any_new any_free h.named op (permits_any op)
  have hdraws := draws_grow h.named op
  unfold perform at hn hdraws ⊢
  rw [hact, final_quiet] at hn hdraws ⊢
  exact h.reviewed hn hdraws (hjobs hdraws) (hreviews hdraws)

theorem kept_create (h : Kept env w) (payload : EvaluationPayload) :
    Kept env (perform env w (.create_evaluation_job payload)) := by
  have hcreated := (create_evaluation_job.rules env payload w).2
  have hdrawn := (⟨w.draws, hcreated.draws, rfl⟩ : DrawnBefore env "ev_"
    ((create_evaluation_job env payload).final w).draws ("ev_" ++ env.uuid4.hex12 w.draws))
  have hfresh : ¬ Flagged w ("ev_" ++ env.uuid4.hex12 w.draws) := by
    intro hflagged
    unfold Flagged at hflagged
    rcases hget : w.store.evaluation_reports.get? ("ev_" ++ env.uuid4.hex12 w.draws) with _ | report
    · rw [hget] at hflagged
      simp [is_flagged] at hflagged
    · exact undrawn (h.reports _ report hget)
  apply kept_perform_quiet h _ (create_evaluation_job env payload) rfl
  · intro hdraws
    apply evaluations_named_new h.jobs hcreated.jobs hdraws
    rintro job hresource -
    rw [hresource]
    exact hdrawn
  · intro _
    exact .ruled _ hdrawn hcreated.ruled (.inr (.inl hfresh))

theorem drawn_of_concerned {e : String} (h : Kept env w) (he : Concerned w e) :
    DrawnBefore env "ev_" w.draws e := by
  obtain ⟨job, hstored, ⟨htype, rfl⟩ | hwaiting⟩ := he
  · exact h.jobs _ job hstored htype
  · exact h.waiting e hwaiting

theorem kept_run (h : Kept env w) {job_id tenant_id : String} {flags : RunFlags}
    (hsafe : LeavesNoFlag env w (.run_job_once job_id tenant_id flags)) :
    Kept env (perform env w (.run_job_once job_id tenant_id flags)) := by
  have hreviews : Meets AnyStep (run_job_once env job_id tenant_id flags) w _ :=
    run_job_once.reviews h.named
  have hsteps : Meets (Step env noQueued) (run_job_once env job_id tenant_id flags) w _ :=
    run_job_once.spec noQueued_free h.named
      fun _ _ _ _ _ t job' _ _ hstatus => (by simp [noQueued, hstatus])
  apply kept_perform_quiet h _ (run_job_once env job_id tenant_id flags) rfl
  · intro _
    exact hsteps.1.invariant_last (fun _ _ hstep => evaluations_named_step hstep) h.jobs
  · intro hdraws
    apply hreviews.2.imp
    · intro e he
      exact (drawn_of_concerned h he).mono hdraws
    · rintro e - ⟨hflags, hdecision⟩
      rcases hsafe with htold | hno
      · exact absurd htold hflags
      · exact .inl (hno e hdecision)

theorem kept_consume (h : Kept env w) {evaluation_id resume_token tenant_id : String}
    (hsafe : LeavesNoFlag env w (.consume_resume_token evaluation_id resume_token tenant_id)) :
    Kept env (perform env w (.consume_resume_token evaluation_id resume_token tenant_id)) := by
  apply kept_perform_quiet h _ (consume_resume_token env evaluation_id resume_token tenant_id) rfl
  · intro hdraws
    have hf := (touches_consume_token (K := [.tokens]) env (by simp) evaluation_id resume_token
      tenant_id).frame w
    exact evaluations_named_of_same h.jobs (hf.same .jobs (by simp)) hdraws
  · intro hdraws
    rcases (consume_resume_token.rules env evaluation_id resume_token tenant_id w).2 with
      ⟨-, hf, -⟩ | ⟨-, hused⟩
    · exact .of_frame hf (by simp) (by simp) (by simp)
    · obtain ⟨record, haccepts⟩ := hused.accepts
      have hdrawn := (h.tokens _ record haccepts.found).mono hdraws
      refine .ruled evaluation_id hdrawn (.of_only hused.frame (by simp) hused.only) ?_
      exact .inr (.inl fun hflagged => hsafe hflagged ⟨record, haccepts⟩)

theorem kept_create_resume (h : Kept env w) (evaluation_id : String) (payload : ResumePayload) :
    Kept env (perform env w (.create_resume_job evaluation_id payload)) := by
  have hcreated := (create_resume_job.rules env evaluation_id payload w).2
  have htokens : ((create_resume_job env evaluation_id payload).final w).store.resume_tokens =
      w.store.resume_tokens := hcreated.frame.same .tokens (by simp [resumeParts])
  have hwaiting : ((create_resume_job env evaluation_id payload).final w).interrupted =
      w.interrupted := hcreated.frame.same .interrupted (by simp [resumeParts])
  apply kept_perform_quiet h _ (create_resume_job env evaluation_id payload) rfl
  · intro hdraws
    apply evaluations_named_new h.jobs hcreated.jobs hdraws
    intro job hresume htype
    rw [hresume] at htype
    cases htype
  · intro hdraws
    rcases hreport : get_report w.store evaluation_id payload.tenant_id with _ | report
    · exact .quiet (hcreated.cleared.absent hreport) htokens hwaiting
    · obtain ⟨hget, -⟩ := Option.filter_eq_some_iff.1 hreport
      have hdrawn := (h.reports _ report hget).mono hdraws
      exact .ruled evaluation_id hdrawn (hcreated.cleared.ruled.mono False.elim) (.inl htokens)

/-- The tenant of an accepted token has the flagged report. -/
theorem report_of_accepted (h : Kept env w) {evaluation_id resume_token tenant_id : String}
    (hflagged : Flagged w evaluation_id)
    (haccepts : ∃ record, Accepts env w evaluation_id resume_token tenant_id record) :
    get_report w.store evaluation_id tenant_id ≠ none := by
  unfold Flagged at hflagged
  rcases hget : w.store.evaluation_reports.get? evaluation_id with _ | report
  · rw [hget] at hflagged
    simp [is_flagged] at hflagged
  · rw [hget] at hflagged
    obtain ⟨record, haccepts⟩ := haccepts
    obtain ⟨interrupt, found, -, hfound, -, -, htenant⟩ := h.agrees _ report hget hflagged
    have hid : report.evaluation_id = evaluation_id := Table.key_of_get? _ hget
    rw [hid, haccepts.found] at hfound
    cases hfound
    have hscope : report.tenant_id = tenant_id := htenant.symm.trans haccepts.tenant
    unfold get_report
    rw [hget, Option.filter_some, if_pos (by simp [hscope])]
    simp

theorem kept_resume (h : Kept env w) {evaluation_id resume_token : String}
    {payload : ResumePayload}
    (hsafe : LeavesNoFlag env w (.resume evaluation_id resume_token payload)) :
    Kept env (perform env w (.resume evaluation_id resume_token payload)) := by
  have hends := (execute_resume.rules env evaluation_id resume_token payload w).2
  apply kept_perform_quiet h _ (execute_resume env evaluation_id resume_token payload) rfl
  · intro hdraws
    rcases hends with hf | ⟨t, hused, r, hcreated, -⟩
    · exact evaluations_named_of_same h.jobs (hf.same .jobs (by simp)) hdraws
    · have hbefore : EvaluationsNamed env t :=
        evaluations_named_of_same h.jobs (hused.frame.same .jobs (by simp)) hused.frame.draws
      apply evaluations_named_new hbefore hcreated.jobs hcreated.frame.draws
      intro job hresume htype
      rw [hresume] at htype
      cases htype
  · intro hdraws
    rcases hends with hf | ⟨t, hused, r, hcreated, hreturns⟩
    · exact .of_frame hf (by simp) (by simp) (by simp)
    · obtain ⟨record, haccepts⟩ := hused.accepts
      have hdrawn := (h.tokens _ record haccepts.found).mono hdraws
      have hruled := Ruled.from hused.frame (by simp) hused.only hcreated.cleared.ruled
      refine .ruled evaluation_id hdrawn (hruled.mono False.elim) (.inr ?_)
      by_cases hflagged : Flagged w evaluation_id
      · right
        have htakes : ReportTakes env t evaluation_id payload.tenant_id := by
          refine (ReportTakes.congr hused.draws ?_ ?_).2 (hsafe hflagged hused.accepts)
          · exact hused.frame.same .reports (by simp)
          · exact hused.holds
        obtain ⟨job_id, hok⟩ := hreturns.2 htakes
        have hreport := report_of_accepted h hflagged hused.accepts
        have hsame : t.store.evaluation_reports = w.store.evaluation_reports :=
          hused.frame.same .reports (by simp)
        refine hcreated.cleared.cleared job_id hok ?_
        unfold get_report at hreport ⊢
        rw [hsame]
        exact hreport
      · exact .inl hflagged

/-! ## The laws -/

/-- A flagged report has the token that is registered for its evaluation,
and that token is not used. -/
def TokensAgree (w : World) : Prop :=
  ∀ evaluation_id report, w.store.evaluation_reports.get? evaluation_id = some report →
    report.needs_human_review = true →
    ∃ interrupt record, report.interrupt = some interrupt ∧
      w.store.resume_tokens.get? evaluation_id = some record ∧ record.used = false ∧
      record.resume_token = interrupt.resume_token

theorem kept_op (h : Kept env w) (op : Op) (hop : OnReviews op) (hsafe : LeavesNoFlag env w op) :
    Kept env (perform env w op) := by
  cases op with
  | create_evaluation_job payload => exact kept_create h payload
  | run_job_once job_id tenant_id flags => exact kept_run h hsafe
  | consume_resume_token evaluation_id resume_token tenant_id => exact kept_consume h hsafe
  | create_resume_job evaluation_id payload => exact kept_create_resume h evaluation_id payload
  | resume evaluation_id resume_token payload => exact kept_resume h hsafe
  | _ => exact absurd hop id

theorem kept_review_run (h : ReviewRun env LeavesNoFlag w) : Kept env w := by
  induction h with
  | start => exact kept_start
  | step h runtime op hop hsafe ih =>
    exact (kept_under runtime).1 (kept_op ((kept_under runtime).2 ih) op hop hsafe)

/-- The bid is registered, and its job is run under the runtime. -/
def evaluated_bid (runtime : RuntimeMode) : World :=
  perform (under calm_env (.ok runtime)) (perform (under calm_env (.ok .langgraph)) World.start
    (.create_evaluation_job reviewed_bid)) (.run_job_once "job_a" "tenant" ⟨false, false, none⟩)

def approve_payload : ResumePayload := ⟨"tenant", "trace", "approve", "", "reviewer", []⟩

end bid_evaluation.agreement_laws
