-- Citations and tenants. Over any evaluations, parse jobs and previews, each
-- report shows sources of its own tenant as long as no evaluation retrieves, and
-- no resume still cites, a chunk that another tenant has registered.
import BidEvaluation.AnnounceLaws
import BidEvaluation.CitationSteps

open dict_lib stepwise bid_evaluation.values bid_evaluation.core bid_evaluation.store_ops
  bid_evaluation.store_workflow bid_evaluation.store_admin bid_evaluation.store_retrieval
  bid_evaluation.store_parse bid_evaluation.store_eval bid_evaluation.evaluation_nodes
  bid_evaluation.langgraph_runtime bid_evaluation.job_run bid_evaluation.operations
  bid_evaluation.job_steps bid_evaluation.run_steps bid_evaluation.job_laws bid_evaluation.endings
  bid_evaluation.announce_laws
  bid_evaluation.review_steps bid_evaluation.scoring_laws bid_evaluation.writes
  bid_evaluation.citation_steps

namespace bid_evaluation.citation_laws

variable {env : Env} {w t : World} {past : Past} {tenant_id : String}

/-! ## What the operations keep -/

/-- Every report and every waiting state shows sources of its tenant. -/
structure AllHome (past : Past) (w : World) : Prop where
  reports : ∀ id report, w.store.evaluation_reports.get? id = some report → HomeReport past w report
  waiting : WaitsHome past w
  keyed : Keyed w

/-- The past has what is stored now. -/
def Remembers (past : Past) (w : World) : Prop :=
  ∀ chunk_id source, SourceAt w chunk_id source → past chunk_id source

theorem AllHome.grown (h : AllHome past w) (hg : Grown past tenant_id w t) : AllHome past t := by
  refine ⟨fun id report hreport => ?_, h.waiting.grown hg, hg.keyed h.keyed⟩
  rcases hg.reports id report hreport with hold | hnew
  · exact (h.reports id report hold).grown hg.sourced
  · exact hnew

/-- What the past has, a change of the sources does not take away. -/
theorem remembered {owner : String} {c : Citation} (hp : Remembers past w)
    (h : FromTenant past owner w c) : FromTenant past owner t c := by
  intro hcontent
  obtain ⟨source, hsource, howned, hshows⟩ := h hcontent
  refine ⟨source, .inl ?_, howned, hshows⟩
  rcases hsource with hpast | hstored
  · exact hpast
  · exact hp _ _ hstored

theorem AllHome.plain (h : AllHome past w) (hp : Remembers past w) (hplain : Plain w t) :
    AllHome past t := by
  refine ⟨fun id report hreport c hc => ?_, fun thread_id state hs => ?_, hplain.keyed h.keyed⟩
  · rw [hplain.reports] at hreport
    exact remembered hp (h.reports id report hreport c hc)
  · rw [hplain.waiting] at hs
    have hcarries := h.waiting thread_id state hs
    refine ⟨rfl, fun r hr c hc => remembered hp (hcarries.results r hr c hc),
      fun report hreport => ?_⟩
    obtain ⟨howned, hhome⟩ := hcarries.report report hreport
    exact ⟨howned, fun c hc => remembered hp (hhome c hc)⟩

/-- The program keeps every report and every waiting state at home. -/
def KeepsHome (past : Past) (m : Act α) (w : World) : Prop :=
  Meets AnyStep m w (fun _ t => AllHome past t)

theorem keepsHome_of_leaves {P : α → World → Prop} {m : Act α} (tenant_id : String)
    (h : AllHome past w) (hm : Leaves past tenant_id P m w) : KeepsHome past m w :=
  ⟨hm.1, h.grown hm.2.1⟩

/-- A program of no report keeps them all, whatever sources it registers. -/
theorem keepsHome_plain {K : List Kind} {m : Act α} (h : AllHome past w) (hp : Remembers past w)
    (hm : Writes K m) (hr : .reports ∉ K) (hi : .interrupted ∉ K) : KeepsHome past m w :=
  ⟨keeps_true m w, h.plain hp (plain_of_writes hm hr hi w)⟩

theorem keepsHome_saving {m : Act α} (h : KeepsHome past m w) :
    KeepsHome past (saving env m) w := by
  refine Meets.bind h (fun a t ht => ?_) (fun e t ht => ht)
  refine Meets.bind (keepsHome_of_leaves "" ht (leaves_quiet (writes_save_state env)))
    (fun _ t' ht' => ?_) (fun _ t' ht' => ht')
  rw [meets_pure]
  exact ht'

theorem leaves_saving {m : Act α} (h : Leaves past tenant_id Anything m w) :
    Leaves past tenant_id Anything (saving env m) w :=
  h.bind fun _ _ _ _ => (leaves_quiet (writes_save_state env)).bind fun _ _ _ _ =>
    leaves_pure trivial

/-! ## An evaluation and its resume -/

theorem create_evaluation.leaves (payload : EvaluationPayload)
    (hevidence : EvidenceAtHome env payload.tenant_id w) :
    Leaves past payload.tenant_id Anything (create_evaluation_job env payload) w := by
  refine leaves_saving ?_
  refine (leaves_quiet (writes_uuid4 env)).bind fun evaluation_hex t₁ hg₁ _ => ?_
  refine (leaves_quiet (writes_uuid4 env)).bind fun job_hex t₂ hg₂ _ => ?_
  refine (leaves_quiet (writes_new_thread_id env "eval")).bind fun thread_id t₃ hg₃ _ => ?_
  have hg := (hg₁.trans hg₂).trans hg₃
  refine (nodes.home (initial_homely _ _ _ _ _ _ t₃) (hevidence.grown hg.sourced)).bind
    fun _ t₄ _ _ => ?_
  refine (leaves_writes (K := [.jobs]) (writes_persist_job (by simp) _) (by simp) (by simp)
    (by simp)).bind fun _ t₅ _ _ => ?_
  exact (leaves_writes (K := [.outbox]) (writes_outbox env (by simp) _ _ _ _ _) (by simp) (by simp)
    (by simp)).bind fun _ _ _ _ => leaves_pure trivial

/-- The report that a resume clears cites what it cited before. -/
theorem clear_review.leaves {report : Option EvaluationReport}
    (h : ∀ found, report = some found → HomeReport past w found) :
    Leaves past tenant_id Anything (clear_review env report) w := by
  cases report with
  | none => exact leaves_pure trivial
  | some found =>
    have hhome : HomeReport past w { found with needs_human_review := false, interrupt := none } :=
      h found rfl
    exact persist_report.leaves env hhome

theorem create_resume.leaves (h : AllHome past w) (evaluation_id : String)
    (payload : ResumePayload) :
    Leaves past tenant_id Anything (create_resume_job env evaluation_id payload) w := by
  have hthread : ∀ report, Writes [] (resume_thread_id env report) := fun report =>
    keeps_ite (writes_new_thread_id env "resume") (keeps_pure _)
  refine leaves_saving ((leaves_quiet (writes_uuid4 env)).bind fun hex t₁ hg₁ _ => leaves_read ?_)
  refine (leaves_quiet (hthread _)).bind fun thread_id t₂ hg₂ _ => ?_
  refine (leaves_writes (K := [.jobs]) (writes_persist_job (by simp) _) (by simp) (by simp)
    (by simp)).bind fun job t₃ hg₃ _ => ?_
  refine Leaves.bind (clear_review.leaves ?_) fun _ t₄ _ _ => ?_
  · intro found hfound
    obtain ⟨hstored, -⟩ := Option.filter_eq_some_iff.1 hfound
    exact ((h.grown hg₁).reports _ found hstored).grown (hg₂.trans hg₃).sourced
  · refine (leaves_quiet (writes_audit env _ _ _)).bind fun _ t₅ _ _ => ?_
    exact (leaves_writes (K := [.outbox])
      (writes_outbox env (by simp) _ _ _ _ _) (by simp) (by simp)
      (by simp)).bind fun _ _ _ _ => leaves_pure trivial

theorem resume.leaves (h : AllHome past w) (evaluation_id resume_token : String)
    (payload : ResumePayload) :
    Leaves past tenant_id Anything (execute_resume env evaluation_id resume_token payload) w := by
  refine (leaves_writes (K := [.tokens])
    (writes_consume_token env (by simp) _ _ _) (by simp) (by simp)
    (by simp)).bind fun consumed t hg _ => ?_
  exact leaves_ite (create_resume.leaves (h.grown hg) evaluation_id payload) leaves_raise

/-! ## The run of a job -/

/-- The run of the job cites no source of another tenant. -/
structure RunsHome (env : Env) (job : Job) (w : World) : Prop where
  evaluation : job.job_type = .evaluation → EvidenceAtHome env job.tenant_id w
  resume : job.job_type = .resume → ResumesHome job w

/-- A job that has a thread keeps it. -/
theorem begin_run.threads (job_id tenant_id : String) (w : World) :
    Meets AnyStep (begin_run env job_id tenant_id) w (fun r _ => ∀ started, r = .ok started →
      ∀ job, w.store.jobs.get? job_id = some job →
        job.thread_id = "" ∨ started.thread_id = job.thread_id) := by
  unfold begin_run
  refine (require_job.spec w job_id (some tenant_id)).bind ?_ (by rintro e t - started ⟨⟩)
  rintro job t ⟨rfl, hjob⟩
  obtain ⟨rfl, hv⟩ := (hjob job).1 rfl
  have hstored : t.store.jobs.get? job.job_id = some job := hv.stored
  by_cases hempty : job.thread_id = ""
  · refine ⟨keeps_true _ t, fun started _ found hfound => .inl ?_⟩
    rw [hstored] at hfound
    cases hfound
    exact hempty
  · unfold ensure_thread
    rw [if_neg hempty, meets_bind, meets_pure, then_ok]
    have hmove : Meets AnyStep (move_to_running env job tenant_id) t
        (fun r _ => ∀ running, r = .ok running → running.thread_id = job.thread_id) := by
      unfold move_to_running
      rw [meets_ite]
      refine ⟨fun hstart => ?_, fun _ => ?_⟩
      · have hmoved : Meets (Step env anyJob)
            (transition_job_status env job.job_id .running (some tenant_id)) t _ :=
          transition_job_status.became hv (edge_to_running hstart)
            (any_free t (moved job .running) (by simp [moved]) (by simp [moved]))
        refine (meets_any hmoved).bind ?_ (by rintro e u - running ⟨⟩)
        rintro running u ⟨hrunning, -⟩
        cases hrunning
        refine (Keeps.meets (keeps_true _) u).bind (fun _ v _ => ?_) (by rintro e v - running ⟨⟩)
        rw [meets_pure]
        rintro _ ⟨⟩
        rfl
      · rw [meets_pure]
        rintro _ ⟨⟩
        rfl
    refine hmove.bind (fun running u hthread => ?_) (by rintro e u - started ⟨⟩)
    refine (Keeps.meets (keeps_true _) u).bind (fun _ v _ => ?_) (by rintro e v - started ⟨⟩)
    refine (Keeps.meets (keeps_true _) v).bind (fun _ x _ => ?_) (by rintro e x - started ⟨⟩)
    rw [meets_pure]
    rintro _ ⟨⟩ found hfound
    rw [hstored] at hfound
    cases hfound
    exact .inr (hthread running rfl)

theorem EvidenceAtHome.same (h : EvidenceAtHome env tenant_id w)
    (hs : t.store.citation_sources = w.store.citation_sources) : EvidenceAtHome env tenant_id t :=
  h.grown (sourced_of_same hs)

theorem run_started.home {job : Job} {flags : RunFlags} (h : AllHome past w) (hp : Remembers past w)
    (hrun : flags.force_fail = false → flags.transient_fail = false →
      (job.job_type = .evaluation → EvidenceAtHome env tenant_id w) ∧
        (job.job_type = .resume → ResumesHome job w)) :
    KeepsHome past (run_started env job tenant_id flags) w := by
  unfold run_started KeepsHome
  rw [meets_ite]
  have hfail : ∀ error_code, Writes [.jobs, .documents, .manifests, .dlq]
      (fail_job env job tenant_id error_code) :=
    fun _ => writes_fail env (by decide) (by decide) (by decide) (by decide) _ _ _
  refine ⟨fun _ => keepsHome_plain h hp (hfail _) (by decide) (by decide), fun hforced => ?_⟩
  rw [meets_ite]
  refine ⟨fun _ => ?_, fun htransient => ?_⟩
  · exact keepsHome_plain h hp (keeps_ite (writes_retry env (by decide) (by decide) _ _ _)
      (hfail _)) (by decide) (by decide)
  · obtain ⟨hevaluation, hresume⟩ :=
      hrun (Bool.eq_false_iff.2 hforced) (Bool.eq_false_iff.2 htransient)
    unfold run_by_type
    split
    · rename_i htype
      exact keepsHome_of_leaves tenant_id h (evaluation_run.leaves job (hevaluation htype))
    · rename_i htype
      exact keepsHome_of_leaves tenant_id h
        (resume_run.leaves h.waiting job (hresume htype) tenant_id)
    · exact keepsHome_plain h hp (writes_succeed
        (K := [.jobs, .documents, .manifests, .chunks, .index, .sources])
        env (by decide) (by decide)
        (by decide) (by decide) (by decide) (by decide) _ _) (by decide) (by decide)

theorem run_job_once.home {job_id : String} {flags : RunFlags} (h : AllHome past w)
    (hp : Remembers past w)
    (hrun : flags.force_fail = false → flags.transient_fail = false → ∀ job,
      w.store.jobs.get? job_id = some job → job.tenant_id = tenant_id → RunsHome env job w) :
    KeepsHome past (run_job_once env job_id tenant_id flags) w := by
  have hwrites : Writes [.jobs, .manifests] (begin_run env job_id tenant_id) :=
    writes_begin env (by simp) (by simp) job_id tenant_id
  have hbegin : Meets (Step env anyJob) (begin_run env job_id tenant_id) w _ :=
    begin_run.spec any_free w job_id tenant_id
  have hends := (keeps_true (begin_run env job_id tenant_id)).ends w
  refine keepsHome_saving (Meets.bind (((meets_any hbegin).and
    (begin_run.threads job_id tenant_id w)).and hends) ?_ ?_)
  · rintro job t ⟨⟨⟨-, found, hid, hv, -, hb, -⟩, hthread⟩, -, rfl⟩
    have hsources := sources_of_writes hwrites (by simp) w
    have hplain := plain_of_writes hwrites (by simp) (by simp) w
    have hstored : w.store.jobs.get? job_id = some found := by
      rw [← hid]
      exact hv.stored
    refine run_started.home (h.plain hp hplain) (fun id source hs => ?_)
      fun hforced htransient => ?_
    · rw [SourceAt, hsources] at hs
      exact hp id source hs
    · have hruns := hrun hforced htransient found hstored (hv.scope tenant_id rfl)
      refine ⟨fun htype => ?_, fun htype => ?_⟩
      · have hevidence := hruns.evaluation (hb.same.job_type.symm.trans htype)
        rw [hv.scope tenant_id rfl] at hevidence
        exact EvidenceAtHome.same hevidence hsources
      · have hresumes :=
          (hruns.resume (hb.same.job_type.symm.trans htype)).same hplain.waiting hsources
        intro thread_id state hnamed
        refine hresumes thread_id state ?_
        rcases hthread job rfl found hstored with hempty | hsame
        · exact .inl hempty
        · rw [← hsame]
          exact hnamed
  · rintro e t ⟨-, -, rfl⟩
    exact h.plain hp (plain_of_writes hwrites (by simp) (by simp) w)

/-- Go past a program that changes no report, no waiting thread and no source. -/
theorem past_jobs {m : Act α} {f : α → Act β} (h : AllHome past w) (hp : Remembers past w)
    (hm : Writes [.jobs] m)
    (hf : ∀ a t, m.result w = .ok a → m.final w = t → AllHome past t → Remembers past t →
      KeepsHome past (f a) t) : KeepsHome past (m >>= f) w := by
  have hplain := plain_of_writes hm (by simp) (by simp) w
  have hsources := sources_of_writes hm (by simp) w
  refine Meets.bind ((keeps_true m).ends w) ?_ ?_
  · rintro a t ⟨ha, ht⟩
    subst ht
    refine hf a _ ha.symm rfl (h.plain hp hplain) fun id source hs => ?_
    rw [SourceAt, hsources] at hs
    exact hp id source hs
  · rintro e t ⟨-, ht⟩
    subst ht
    exact h.plain hp hplain

theorem past_quiet {m : Act α} {f : α → Act β} (h : AllHome past w) (hp : Remembers past w)
    (hm : Writes [] m) (hf : ∀ a t, AllHome past t → Remembers past t → KeepsHome past (f a) t) :
    KeepsHome past (m >>= f) w :=
  past_jobs h hp (hm.widen (by simp)) fun a t _ _ => hf a t

/-- The replay job of a rollback is no evaluation and no resume. -/
theorem rollback.home (h : AllHome past w) (hp : Remembers past w)
    (release_id tenant_id trace_id : String) (trigger_gate : Option String) :
    KeepsHome past (execute_rollback env release_id tenant_id trace_id trigger_gate) w := by
  refine keepsHome_saving ?_
  cases trigger_gate with
  | none => exact meets_pure.2 h
  | some gate =>
    refine past_quiet h hp (writes_audit env _ _ _) fun _ t₁ h hp => ?_
    refine past_quiet h hp (writes_uuid4 env) fun hex t₂ h hp => ?_
    refine past_quiet h hp (writes_new_thread_id env _) fun thread_id t₃ h hp => ?_
    refine past_jobs h hp (writes_persist_job (by simp) _) fun job t₄ hjob ht₄ h hp => ?_
    have hruns : ∀ found, t₄.store.jobs.get? job.job_id = some found → RunsHome env found t₄ := by
      intro found hfound
      have hput : t₄.store.jobs.get? job.job_id = some job := by
        rw [← ht₄, ← Except.ok.inj hjob]
        exact Table.get?_put_self _ _
      rw [hput] at hfound
      cases hfound
      rw [← Except.ok.inj hjob]
      exact ⟨by rintro ⟨⟩, by rintro ⟨⟩⟩
    have hrun : KeepsHome past (run_job_once env job.job_id tenant_id RunFlags.default) t₄ :=
      run_job_once.home h hp fun _ _ found hfound _ => hruns found hfound
    refine Meets.bind hrun (fun _ t₅ h => ?_) (fun _ t₅ h => h)
    exact keepsHome_of_leaves tenant_id h (leaves_quiet (writes_audit env _ _ _))

/-! ## Careful operations -/

/-- The operation cites no source of another tenant. Only an evaluation and a
resume cite sources. -/
def CitesOwn (env : Env) (w : World) : Op → Prop
  | .create_evaluation_job payload => EvidenceAtHome env payload.tenant_id w
  | .run_job_once job_id tenant_id flags =>
    flags.force_fail = false → flags.transient_fail = false → ∀ job,
      w.store.jobs.get? job_id = some job → job.tenant_id = tenant_id → RunsHome env job w
  | _ => True

theorem keepsHome_perform (h : AllHome past w) (hp : Remembers past w) (op : Op)
    (hop : CitesOwn env w op) : AllHome past (perform env w op) := by
  have hplain : .reports ∉ kinds_of op → .interrupted ∉ kinds_of op →
      AllHome past (perform env w op) :=
    fun hr hi => (keepsHome_plain h hp (writes_op env op) hr hi).2
  have hquiet : ∀ {α : Type} {m : Act α}, KeepsHome past m w →
      AllHome past ((quiet m).final w) := by
    intro α m hm
    rw [final_quiet]
    exact hm.2
  cases op with
  | create_evaluation_job payload =>
    exact hquiet (keepsHome_of_leaves payload.tenant_id h (create_evaluation.leaves payload hop))
  | create_resume_job evaluation_id payload =>
    exact hquiet
      (keepsHome_of_leaves payload.tenant_id h (create_resume.leaves h evaluation_id payload))
  | resume evaluation_id resume_token payload =>
    exact hquiet (keepsHome_of_leaves payload.tenant_id h
      (resume.leaves h evaluation_id resume_token payload))
  | run_job_once job_id tenant_id flags => exact hquiet (run_job_once.home h hp hop)
  | execute_rollback release_id tenant_id trace_id trigger_gate =>
    exact (rollback.home h hp release_id tenant_id trace_id trigger_gate).2
  | _ => exact hplain (by simp [kinds_of]) (by simp [kinds_of])

end bid_evaluation.citation_laws
