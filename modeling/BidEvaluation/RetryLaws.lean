-- The laws of a run that fails in a way that may pass. The job is retried
-- with a growing delay until the retries are used up, and is then given up
-- with one dead letter item. What its error is called does not count.
import BidEvaluation.ItemLaws

open dict_lib stepwise bid_evaluation.values bid_evaluation.core bid_evaluation.store_ops
  bid_evaluation.store_workflow bid_evaluation.store_admin bid_evaluation.store_parse
  bid_evaluation.job_run bid_evaluation.operations bid_evaluation.frames bid_evaluation.job_steps
  bid_evaluation.run_steps bid_evaluation.op_steps bid_evaluation.job_laws bid_evaluation.endings
  bid_evaluation.item_laws

namespace bid_evaluation.retry_laws

variable {env : Env} {w w' : World} {job : Job} {tenant_id : String}

/-! ## The two ends of such a run -/

/-- The flags of a run that fails in a way that may pass. -/
def transient (force_error_code : Option String) : RunFlags := ⟨false, true, force_error_code⟩

def transient_code (force_error_code : Option String) : String :=
  wordOr force_error_code "RAG_UPSTREAM_UNAVAILABLE"

/-- The last error of the job, which is also the last one of its errors. -/
def LastError (job : Job) (code error_class : String) (retryable : Bool) : Prop :=
  ∃ info : ErrorInfo, job.last_error = some info ∧ job.errors.getLast? = some info ∧
    info.code = code ∧ info.error_class = error_class ∧ info.retryable = retryable

/-- The job waits for its next retry. -/
structure Retried (env : Env) (code : String) (w w' : World) (job : Job)
    (r : Except PyErr RunResult) : Prop where
  result : ∃ result, r = .ok result ∧ result.final_status = .retrying ∧
    result.retry_count = some (job.retry_count + 1) ∧
    result.retry_after_ms = some (retry_backoff_ms env job.job_id (job.retry_count + 1))
  leaves : ∃ job', Became [.jobs] w w' job job' ∧ job'.status = .retrying ∧
    job'.retry_count = job.retry_count + 1 ∧ LastError job' code "transient" true

/-- One item was added, under a name that was drawn on the way. -/
structure NewItem (env : Env) (w w' : World) (job_id code : String) (item : DlqItem) : Prop where
  items : w'.store.dlq_items = w.store.dlq_items.put item
  drawn : ∃ n, w.draws ≤ n ∧ item.dlq_id = "dlq_" ++ env.uuid4.hex12 n
  job_id : item.job_id = job_id
  error_code : item.error_code = code

/-- The document of the job is there for no other tenant. -/
def OwnResource (w : World) (job : Job) (tenant_id : String) : Prop :=
  job.job_type = .parse → ∀ document, w.store.documents.get? job.resource_id = some document →
    document.tenant_id = tenant_id

/-- The job is failed, and has its item. -/
structure GaveUp (env : Env) (code : String) (w w' : World) (job : Job) (tenant_id : String)
    (r : Except PyErr RunResult) : Prop where
  result : ∀ result, r = .ok result → result.final_status = .failed
  returns : OwnResource w job tenant_id → ∃ result, r = .ok result
  leaves : ∃ job', Became failedParts w w' job job' ∧ job'.status = .failed ∧
    job'.retry_count = job.retry_count ∧ LastError job' code (classify_error_code code).error_class
      (classify_error_code code).retryable
  item : ∃ item, NewItem env w w' job.job_id code item

theorem Retried.from {code : String} {t : World} {job₀ : Job} {r : Except PyErr RunResult}
    (hb : Became [.jobs] w t job₀ job) (hretry : job.retry_count = job₀.retry_count)
    (h : Retried env code t w' job r) : Retried env code w w' job₀ r := by
  obtain ⟨⟨result, hr, hstatus, hcount, hdelay⟩, job', hb', hstatus', hcount', herror⟩ := h
  rw [hretry] at hcount hdelay hcount'
  rw [hb.same.job_id] at hdelay
  exact ⟨⟨result, hr, hstatus, hcount, hdelay⟩, job', hb.trans hb', hstatus', hcount', herror⟩

theorem NewItem.from {K : List Part} {t : World} {job_id code : String} {item : DlqItem}
    (hf : Frame K w t) (hK : .dlq ∉ K) (h : NewItem env t w' job_id code item) :
    NewItem env w w' job_id code item := by
  obtain ⟨n, hn, hname⟩ := h.drawn
  have hsame : t.store.dlq_items = w.store.dlq_items := hf.same .dlq hK
  exact ⟨hsame ▸ h.items, ⟨n, hf.draws.trans hn, hname⟩, h.job_id, h.error_code⟩

theorem NewItem.later {K : List Part} {t : World} {job_id code : String} {item : DlqItem}
    (h : NewItem env w t job_id code item) (hf : Frame K t w') (hK : .dlq ∉ K) :
    NewItem env w w' job_id code item := by
  have hsame : w'.store.dlq_items = t.store.dlq_items := hf.same .dlq hK
  exact ⟨hsame.trans h.items, h.drawn, h.job_id, h.error_code⟩

theorem GaveUp.from {code : String} {t : World} {job₀ : Job} {r : Except PyErr RunResult}
    (hb : Became [.jobs] w t job₀ job) (hretry : job.retry_count = job₀.retry_count)
    (h : GaveUp env code t w' job tenant_id r) : GaveUp env code w w' job₀ tenant_id r := by
  obtain ⟨hresult, hreturns, ⟨job', hb', hstatus, hcount, herror⟩, item, hitem⟩ := h
  refine ⟨hresult, fun hown => hreturns fun htype => ?_, ⟨job', ?_, hstatus, hcount.trans hretry, herror⟩,
    item, hb.same.job_id ▸ hitem.from hb.frame (by simp)⟩
  · have hdocuments : t.store.documents = w.store.documents := hb.frame.same .documents (by simp)
    rw [hb.same.resource_id, hdocuments]
    exact hown (hb.same.job_type ▸ htype)
  · exact (hb.widen (by simp [failedParts])).trans hb'

/-! ## The retry -/

theorem retry_job.retries (code : String) (hv : Visible w job (some tenant_id))
    (hrunning : job.status = .running) :
    Meets AnyStep (retry_job env job tenant_id code) w
      (fun r t => Retried env code w t job r) := by
  unfold retry_job
  refine moved_along hv rfl (by simp [hrunning, ALLOWED_TRANSITIONS]) fun t₁ hb₁ => ?_
  have hcount : (moved job .retrying).retry_count = job.retry_count + 1 := rfl
  refine past_return (K := []) (touches_utcnow env) (returns_utcnow env) fun now t₂ hf₂ => ?_
  refine past_return (K := []) (touches_utcnow env) (returns_utcnow env) fun at_ t₃ hf₃ => ?_
  have hb₃ := (hb₁.later hf₂ (by simp) (by simp)).later hf₃ (by simp) (by simp)
  refine noted_along hb₃.stored ⟨rfl, rfl, rfl, rfl, rfl, rfl⟩ rfl fun t₄ hput => ?_
  have hb₄ := hb₃.noted hput ⟨rfl, rfl, rfl, rfl, rfl, rfl⟩ (by simp)
  refine past_return (K := []) (touches_change_parse_manifest (fun _ => keeps_pure _) _ _)
    (returns_retry_manifest _ _ _) fun _ t₅ hf₅ => ?_
  refine past_return (K := []) (touches_checkpoint env _ _ _ _ _ _) (returns_checkpoint env _ _ _ _ _ _)
    fun _ t₆ hf₆ => ?_
  rw [meets_pure]
  refine ⟨⟨_, rfl, rfl, by rw [hcount], by rw [hcount]⟩, _,
    (hb₄.later hf₅ (by simp) (by simp)).later hf₆ (by simp) (by simp), rfl, hcount, ?_⟩
  exact ⟨_, rfl, List.getLast?_concat, rfl, rfl, rfl⟩

/-! ## The failure -/

theorem dead_letter.gives_up (code : String) (hv : Visible w job (some tenant_id))
    (hrunning : job.status = .running) :
    Meets AnyStep (dead_letter env job tenant_id code) w (fun r t => ∃ item job',
      r = .ok (item, job') ∧ Became [.jobs, .dlq] w t job job' ∧ job'.status = .failed ∧
        job'.retry_count = job.retry_count ∧
        LastError job' code (classify_error_code code).error_class (classify_error_code code).retryable ∧
        NewItem env w t job.job_id code item) := by
  unfold dead_letter
  refine moved_along hv rfl (by simp [hrunning, ALLOWED_TRANSITIONS]) fun t₁ hb₁ => ?_
  refine moved_along (hb₁.visible hv) rfl (by simp [moved, ALLOWED_TRANSITIONS]) fun t₂ hb₂ => ?_
  have hb₂ := hb₁.trans hb₂
  refine ((ends_touches (touches_seed_dlq_item env (List.mem_singleton_self _) _ _ _ _) t₂).and
    (seed_dlq_item.puts env _ _ _ _ t₂)).bind ?_ (by rintro e t ⟨-, he, -⟩; cases he)
  rintro _ t₃ ⟨hf₃, ⟨⟩, hstore⟩
  have hitem : NewItem env w t₃ job.job_id code
      (seeded_item env t₂ job.job_id (classify_error_code code).error_class code tenant_id) := by
    refine NewItem.from hb₂.frame (by simp) ⟨?_, ⟨t₂.draws, Nat.le_refl _, rfl⟩, rfl, rfl⟩
    rw [hstore]
  have hb₃ : Became [.jobs, .dlq] w t₃ job _ :=
    ⟨hb₂.same, hb₂.stored.frame hf₃ (by simp),
      (hb₂.frame.mono (by simp)).trans (hf₃.mono (by simp))⟩
  refine moved_along (hb₃.visible hv) rfl (by simp [moved, ALLOWED_TRANSITIONS]) fun t₄ hb₄ => ?_
  have hb₄' : Became [.jobs, .dlq] w t₄ job _ := hb₃.trans (hb₄.widen (by simp))
  refine past_return (K := []) (touches_utcnow env) (returns_utcnow env) fun now t₅ hf₅ => ?_
  have hb₅ := hb₄'.later hf₅ (by simp) (by simp)
  refine noted_along hb₅.stored ⟨rfl, rfl, rfl, rfl, rfl, rfl⟩ rfl fun t₆ hput => ?_
  rw [meets_pure]
  refine ⟨_, _, rfl, hb₅.noted hput ⟨rfl, rfl, rfl, rfl, rfl, rfl⟩ (by simp), rfl, rfl, ?_, ?_⟩
  · exact ⟨_, rfl, List.getLast?_concat, rfl, rfl, rfl⟩
  · exact ((hitem.later hb₄.frame (by simp)).later hf₅ (by simp)).later hput.frame (by simp)

/-- The mark of the failed document goes through when the tenant owns it. -/
theorem fail_parse.returns (env : Env) (code : String) (hown : OwnResource w job tenant_id) :
    Meets AnyStep (fail_parse env job tenant_id code) w (fun r _ => ∃ u, r = .ok u) := by
  unfold fail_parse
  rw [meets_ite]
  refine ⟨fun htype => ?_, fun _ => ?_⟩
  · have hmanifest : ∀ manifest, Returns (failed_manifest env code manifest) := fun _ =>
      returns_bind (returns_utcnow env) fun _ => returns_pure _
    refine past_return (K := []) (touches_change_manifest (fun _ =>
      keeps_bind (touches_utcnow env) fun _ => keeps_pure _) _ _)
      (returns_change_manifest hmanifest _ _) fun _ t hf => ?_
    have hdocuments : t.store.documents = w.store.documents := hf.same .documents (by simp)
    have hscope := hown htype
    rw [← hdocuments] at hscope
    unfold mark_document get_document_for_tenant
    simp only [meets_bind, meets_read, then_ok]
    rcases hfound : t.store.documents.get? job.resource_id with _ | found
    · simp only [meets_pure, then_ok]
      exact ⟨(), trivial⟩
    · simp only [assert_tenant_scope, hscope found hfound, ne_eq, not_true, if_false, meets_bind,
        meets_pure, then_ok, persist_document, update, meets_write]
      exact ⟨trivial, (), trivial⟩
  · rw [meets_pure]
    exact ⟨(), rfl⟩

theorem fail_job.gives_up (code : String) (hcode : code ≠ "") (hv : Visible w job (some tenant_id))
    (hrunning : job.status = .running) :
    Meets AnyStep (fail_job env job tenant_id (some code)) w
      (fun r t => GaveUp env code w t job tenant_id r) := by
  unfold fail_job
  have hword : wordOr (some code) (default_error_code job) = code := if_neg hcode
  rw [hword]
  refine (dead_letter.gives_up code hv hrunning).bind ?_ (by rintro e t ⟨item, job', he, -⟩; cases he)
  rintro ⟨item, job'⟩ t₁ ⟨_, _, ⟨⟩, hb₁, hfailed, hcount, herror, hitem⟩
  have hdocuments : t₁.store.documents = w.store.documents := hb₁.frame.same .documents (by simp)
  have hb₁ : Became failedParts w t₁ job job' := hb₁.widen (by simp [failedParts])
  have hparse : Meets AnyStep (fail_parse env job tenant_id code) t₁ (fun r t =>
      Frame [.documents, .chunks] t₁ t ∧ (OwnResource w job tenant_id → ∃ u, r = .ok u)) := by
    refine (ends_touches (touches_fail_parse env (by simp) (by simp) _ _ _) t₁).and ?_
    refine ⟨keeps_true _ _, fun hown => ?_⟩
    refine (fail_parse.returns env code (w := t₁) fun htype document hfound => ?_).2
    exact hown htype document (hdocuments ▸ hfound)
  refine hparse.bind ?_ ?_
  · rintro _ t₂ ⟨hf₂, -⟩
    refine past_return (K := []) (touches_checkpoint env _ _ _ _ _ _)
      (returns_checkpoint env _ _ _ _ _ _) fun _ t₃ hf₃ => ?_
    rw [meets_pure]
    refine ⟨?_, fun _ => ⟨_, rfl⟩, ⟨job', ?_, hfailed, hcount, herror⟩, item,
      (hitem.later hf₂ (by simp)).later hf₃ (by simp)⟩
    · rintro _ ⟨⟩
      rfl
    · exact (hb₁.later hf₂ (by simp) (by simp [failedParts])).later hf₃ (by simp) (by simp)
  · rintro e t₂ ⟨hf₂, hreturns⟩
    refine ⟨?_, fun hown => ?_, ⟨job', hb₁.later hf₂ (by simp) (by simp [failedParts]), hfailed, hcount,
      herror⟩, item, hitem.later hf₂ (by simp)⟩
    · rintro _ ⟨⟩
    · obtain ⟨u, hu⟩ := hreturns hown
      cases hu

/-! ## The run -/

theorem Retried.later {code : String} {t : World} {r : Except PyErr RunResult}
    (h : Retried env code w t job r) (hf : Frame [] t w') : Retried env code w w' job r := by
  obtain ⟨hresult, job', hb, hrest⟩ := h
  exact ⟨hresult, job', hb.later hf (by simp) (by simp), hrest⟩

theorem GaveUp.later {code : String} {t : World} {r : Except PyErr RunResult}
    (h : GaveUp env code w t job tenant_id r) (hf : Frame [] t w') :
    GaveUp env code w w' job tenant_id r := by
  obtain ⟨hresult, hreturns, ⟨job', hb, hrest⟩, item, hitem⟩ := h
  exact ⟨hresult, hreturns, ⟨job', hb.later hf (by simp) (by simp), hrest⟩, item,
    hitem.later hf (by simp)⟩

theorem transient_code_ne (force_error_code : Option String) : transient_code force_error_code ≠ "" := by
  unfold transient_code wordOr
  rcases force_error_code with _ | code
  · decide
  · dsimp only
    split
    · decide
    · assumption

/-- The run of a job that can start: a retry while some are left, and the end
of the job otherwise. -/
theorem transient_run.spec (env : Env) (force_error_code : Option String) (hv : Visible w job (some tenant_id))
    (hstart : Startable job.status) :
    Meets AnyStep (run_job_once env job.job_id tenant_id (transient force_error_code)) w (fun r t =>
      (job.retry_count < env.worker_max_retries →
        Retried env (transient_code force_error_code) w t job r) ∧
      (¬ job.retry_count < env.worker_max_retries →
        GaveUp env (transient_code force_error_code) w t job tenant_id r)) := by
  have hspec : Meets (Step env anyJob) (begin_run env job.job_id tenant_id) w _ :=
    begin_run.spec any_free w job.job_id tenant_id
  unfold run_job_once
  refine any_saving ((meets_any hspec).bind ?_ ?_) ?_
  · rintro job' t ⟨-, found, hid, hfound, -, hb, hrunning, hretry⟩
    cases hv.stored.unique hfound.stored hid
    have hv' := hb.visible hv
    unfold run_started
    rw [if_neg (by simp [transient] : ¬ (transient force_error_code).force_fail = true),
      if_pos (by rfl : (transient force_error_code).transient_fail = true)]
    dsimp only
    rw [hretry]
    by_cases hleft : job.retry_count < env.worker_max_retries
    · rw [if_pos hleft]
      refine (retry_job.retries (transient_code force_error_code) hv' hrunning).post ?_
      intro r t' h
      exact ⟨fun _ => h.from hb hretry, fun hno => absurd hleft hno⟩
    · rw [if_neg hleft]
      refine (fail_job.gives_up (transient_code force_error_code) (transient_code_ne _) hv'
        hrunning).post ?_
      intro r t' h
      exact ⟨fun hyes => absurd hyes hleft, fun _ => h.from hb hretry⟩
  · rintro e t ⟨-, hno⟩
    exact absurd hstart ((hno job rfl hv.stored).2 hv)
  · rintro result t t' ⟨hretried, hgave⟩ hf
    exact ⟨fun hleft => (hretried hleft).later hf, fun hspent => (hgave hspent).later hf⟩

/-! ## Retries are bounded -/

/-- One call for each error code. -/
def runs (job : Job) (codes : List (Option String)) : List Op :=
  codes.map fun code => .run_job_once job.job_id job.tenant_id (transient code)

theorem after_runs_concat (env : Env) (w : World) (job : Job) (codes : List (Option String))
    (code : Option String) : after env w (runs job (codes ++ [code])) =
      (run_job_once env job.job_id job.tenant_id (transient code)).final (after env w (runs job codes)) := by
  unfold runs after
  rw [List.map_append, List.foldl_append]
  exact final_bind_pure _

/-- What holds after some runs of a job that was queued: the job can start
again, or it has ended with one new item. -/
structure Standing (env : Env) (w : World) (job : Job) (runs : Nat) (t : World) : Prop where
  named : Named env t
  waiting : runs ≤ env.worker_max_retries → t.store.dlq_items = w.store.dlq_items ∧
    t.store.documents = w.store.documents ∧ w.draws ≤ t.draws ∧
    ∃ job', SameJob job job' ∧ Stored t job' ∧ Startable job'.status ∧ job'.retry_count = runs
  ended : env.worker_max_retries < runs → ∃ job', SameJob job job' ∧ Stored t job' ∧
    job'.status = .failed

theorem Standing.visible {job' : Job} (hsame : SameJob job job') (hstored : Stored w job') :
    Visible w job' (some job.tenant_id) := by
  refine ⟨hstored, ?_⟩
  rintro tenant ⟨⟩
  exact hsame.tenant_id

theorem retrying_starts : Startable .retrying := .inl rfl

/-- Another run of the job, from where the runs before it left it. -/
structure NextRun (env : Env) (w : World) (job : Job) (runs : Nat) (t : World)
    (r : Except PyErr RunResult) (t' : World) : Prop where
  standing : Standing env w job (runs + 1) t'
  retried : runs < env.worker_max_retries → ∃ result, r = .ok result ∧ result.final_status = .retrying ∧
    result.retry_count = some (runs + 1) ∧
    result.retry_after_ms = some (retry_backoff_ms env job.job_id (runs + 1)) ∧
    ∃ job', Stored t' job' ∧ job'.job_id = job.job_id ∧ job'.status = .retrying ∧
      job'.retry_count = runs + 1
  given_up : runs = env.worker_max_retries → (∀ result, r = .ok result → result.final_status = .failed) ∧
    (OwnResource w job job.tenant_id → ∃ result, r = .ok result) ∧
    ∃ item, w.store.dlq_items.get? item.dlq_id = none ∧ item.job_id = job.job_id ∧
      t'.store.dlq_items = w.store.dlq_items.put item
  refused : env.worker_max_retries < runs → (∃ e, r = .error e) ∧
    t'.store.dlq_items = t.store.dlq_items

theorem Standing.next {runs : Nat} {t : World} (h : Standing env w job runs t) (code : Option String) :
    NextRun env w job runs t
      ((run_job_once env job.job_id job.tenant_id (transient code)).result t)
      ((run_job_once env job.job_id job.tenant_id (transient code)).final t) := by
  have hnamed : Named env ((run_job_once env job.job_id job.tenant_id (transient code)).final t) := by
    have hperform := named_perform any_new any_free h.named
      (.run_job_once job.job_id job.tenant_id (transient code)) (permits_any _)
    rwa [perform, Op.act, operations.quiet, final_bind_pure] at hperform
  rcases Nat.lt_trichotomy runs env.worker_max_retries with hleft | hlast | hover
  · obtain ⟨hitems, hdocuments, hdraws, job', hsame, hstored, hstart, hcount⟩ := h.waiting hleft.le
    obtain ⟨-, hretried, -⟩ :=
      transient_run.spec env code (Standing.visible hsame hstored) hstart
    rw [hsame.job_id, hcount] at hretried
    obtain ⟨⟨result, hr, hstatus, hretry, hdelay⟩, last, hb, hretrying, hcount', -⟩ := hretried hleft
    rw [hcount] at hretry hdelay hcount'
    rw [hsame.job_id] at hdelay
    have hsame' := hsame.trans hb.same
    refine ⟨⟨hnamed, fun _ => ⟨?_, ?_, hdraws.trans hb.frame.draws, last, hsame', hb.stored, ?_, hcount'⟩,
      fun hno => by omega⟩, fun _ => ⟨result, hr, hstatus, hretry, hdelay, last, hb.stored,
        hsame'.job_id, hretrying, hcount'⟩, fun hno => by omega, fun hno => by omega⟩
    · have hkept : _ = t.store.dlq_items := hb.frame.same .dlq (by simp)
      exact hkept.trans hitems
    · have hkept : _ = t.store.documents := hb.frame.same .documents (by simp)
      exact hkept.trans hdocuments
    · rw [hretrying]
      exact retrying_starts
  · obtain ⟨hitems, hdocuments, hdraws, job', hsame, hstored, hstart, hcount⟩ := h.waiting hlast.le
    obtain ⟨-, -, hgave⟩ :=
      transient_run.spec env code (Standing.visible hsame hstored) hstart
    rw [hsame.job_id, hcount] at hgave
    obtain ⟨hresult, hreturns, ⟨last, hb, hfailed, -, -⟩, item, hitem⟩ := hgave (by omega)
    refine ⟨⟨hnamed, fun hno => by omega, fun _ => ⟨last, hsame.trans hb.same, hb.stored, hfailed⟩⟩,
      fun hno => by omega, fun _ => ⟨hresult, fun hown => hreturns fun htype document hfound => ?_, item,
        ?_, hitem.job_id.trans hsame.job_id, hitems ▸ hitem.items⟩, fun hno => by omega⟩
    · rw [hdocuments, hsame.resource_id] at hfound
      exact hown (hsame.job_type.symm.trans htype) document hfound
    · obtain ⟨n, hn, hname⟩ := hitem.drawn
      rw [← hitems]
      by_contra hthere
      obtain ⟨old, hold⟩ := Option.ne_none_iff_exists'.1 hthere
      rw [hname] at hold
      obtain ⟨m, hm, heq⟩ := h.named.dlq _ old hold
      have := env.uuid4.distinct ((String.append_right_inj "dlq_").1 heq)
      omega
  · obtain ⟨job', hsame, hstored, hfailed⟩ := h.ended hover
    have hno : ¬ (Visible t job' (some job.tenant_id) ∧ Startable job'.status) := by
      rintro ⟨-, hstart⟩
      rw [hfailed] at hstart
      rcases hstart with hstart | hstart <;> cases hstart
    obtain ⟨-, hraised, last, hb, hstatus⟩ := not_started_run.spec env (transient code) hstored hno
    rw [hsame.job_id] at hraised hb
    refine ⟨⟨hnamed, fun hno => by omega, fun _ => ⟨last, hsame.trans hb.same, hb.stored,
      hstatus.trans hfailed⟩⟩, fun hno => by omega, fun hno => by omega, fun _ => ⟨hraised, ?_⟩⟩
    exact hb.frame.same .dlq (by simp)

theorem standing_after (hn : Named env w) (hstored : Stored w job) (hqueued : job.status = .queued)
    (hzero : job.retry_count = 0) (codes : List (Option String)) :
    Standing env w job codes.length (after env w (runs job codes)) := by
  induction codes using List.reverseRecOn with
  | nil =>
    refine ⟨hn, fun _ => ⟨rfl, rfl, Nat.le_refl _, job, SameJob.refl job, hstored, ?_, hzero⟩,
      fun hno => by cases hno⟩
    rw [hqueued]
    exact .inl rfl
  | append_singleton codes code ih =>
    rw [after_runs_concat, List.length_append]
    exact (ih.next code).standing

/-- The delay before the retry `k`, without its jitter. -/
def backoff (env : Env) (k : Nat) : Nat :=
  min (max env.worker_retry_backoff_base_ms env.worker_retry_backoff_max_ms)
    (env.worker_retry_backoff_base_ms * 2 ^ (k - 1))

theorem retry_backoff_between (env : Env) (job_id : String) {k : Nat} (hk : 1 ≤ k) :
    backoff env k ≤ retry_backoff_ms env job_id k ∧ retry_backoff_ms env job_id k ≤ backoff env k + 300 := by
  have hjitter : retry_jitter_ms env job_id k ≤ 300 := by
    unfold retry_jitter_ms
    omega
  have hdelay : retry_backoff_ms env job_id k = backoff env k + retry_jitter_ms env job_id k := by
    unfold retry_backoff_ms backoff
    rw [Nat.max_eq_right hk]
  omega

/-- The call after these ones, on a job that was queued in `w`. -/
structure RetryPolicy (env : Env) (w : World) (job : Job) (codes : List (Option String))
    (code : Option String) (r : Except PyErr RunResult) (t : World) : Prop where
  retried : codes.length < env.worker_max_retries → ∃ result delay, r = .ok result ∧
    result.final_status = .retrying ∧ result.retry_count = some (codes.length + 1) ∧
    result.retry_after_ms = some delay ∧ backoff env (codes.length + 1) ≤ delay ∧
    delay ≤ backoff env (codes.length + 1) + 300 ∧
    ∃ job', t.store.jobs.get? job.job_id = some job' ∧ job'.status = .retrying ∧
      job'.retry_count = codes.length + 1
  given_up : codes.length = env.worker_max_retries →
    (∀ result, r = .ok result → result.final_status = .failed) ∧
    (OwnResource w job job.tenant_id → ∃ result, r = .ok result) ∧
    (∃ job', t.store.jobs.get? job.job_id = some job' ∧ job'.status = .failed) ∧
    ∃ item, w.store.dlq_items.get? item.dlq_id = none ∧ item.job_id = job.job_id ∧
      t.store.dlq_items = w.store.dlq_items.put item
  refused : env.worker_max_retries < codes.length → (∃ e, r = .error e) ∧
    (∃ job', t.store.jobs.get? job.job_id = some job' ∧ job'.status = .failed) ∧
    t.store.dlq_items = (after env w (runs job codes)).store.dlq_items

/-- A job that waits for its first run. -/
def queued_parse : World := after calm_env World.start [.upload bid_file false]

theorem queued_parse_found : ∃ job, Visible queued_parse job (some "tenant") ∧ job.job_id = "job_a" ∧
    job.status = .queued ∧ job.retry_count = 0 := by
  have hfound : (queued_parse.store.jobs.get? "job_a").map (fun job =>
      (job.status, job.retry_count, job.tenant_id)) = some (.queued, 0, "tenant") := by decide +kernel
  obtain ⟨job, hjob, hparts⟩ := Option.map_eq_some_iff.1 hfound
  simp only [Prod.mk.injEq] at hparts
  obtain ⟨hstatus, hretry, htenant⟩ := hparts
  have hid : job.job_id = "job_a" := Table.key_of_get? _ hjob
  refine ⟨job, ⟨?_, ?_⟩, hid, hstatus, hretry⟩
  · unfold Stored
    rw [hid]
    exact hjob
  · rintro tenant ⟨⟩
    exact htenant

/-- What the run of a job with an error of this code is to do. -/
structure FollowsClass (env : Env) (w : World) (job : Job) (tenant_id code : String) : Prop where
  retried : ∀ job', ((run_job_once env job.job_id tenant_id (transient (some code))).final w).store.jobs.get?
    job.job_id = some job' → job'.status = .retrying → (classify_error_code code).retryable = true
  given_up : (classify_error_code code).retryable = false → ∃ job' item,
    ((run_job_once env job.job_id tenant_id (transient (some code))).final w).store.jobs.get? job.job_id =
      some job' ∧ job'.status = .failed ∧
    ((run_job_once env job.job_id tenant_id (transient (some code))).final w).store.dlq_items =
      w.store.dlq_items.put item ∧ item.job_id = job.job_id
  recorded : ∃ job', ((run_job_once env job.job_id tenant_id (transient (some code))).final
    w).store.jobs.get? job.job_id = some job' ∧ LastError job' (transient_code (some code))
      (classify_error_code code).error_class (classify_error_code code).retryable

/-- A code that is left out is classified as an empty one. -/
theorem classify_transient (code : String) :
    (classify_error_code (transient_code (some code))).error_class = (classify_error_code code).error_class ∧
      (classify_error_code (transient_code (some code))).retryable = (classify_error_code code).retryable := by
  by_cases hempty : code = ""
  · rw [hempty]
    decide
  · rw [show transient_code (some code) = code from if_neg hempty]
    exact ⟨rfl, rfl⟩

theorem retryable_is_transient {code : String} (h : (classify_error_code code).retryable = true) :
    (classify_error_code code).error_class = "transient" := by
  unfold classify_error_code at h ⊢
  split at h <;> first | rfl | cases h

/-- The class of the code is followed exactly when it is retryable, or no
retry is left anyway. -/
theorem class_is_followed_iff (env : Env) (w : World) (job : Job) (tenant_id code : String)
    (hv : Visible w job (some tenant_id)) (hstart : Startable job.status) :
    FollowsClass env w job tenant_id code ↔
      (classify_error_code code).retryable = true ∨ env.worker_max_retries ≤ job.retry_count := by
  obtain ⟨-, hretried, hgave⟩ := transient_run.spec env (some code) hv hstart
  have hclass := classify_transient code
  by_cases hleft : job.retry_count < env.worker_max_retries
  · obtain ⟨-, job', hb, hstatus, -, herror⟩ := hretried hleft
    have hfound := hb.stored
    unfold Stored at hfound
    rw [hb.same.job_id] at hfound
    constructor
    · intro h
      exact .inl (h.retried job' hfound hstatus)
    · rintro (hretryable | hspent)
      · refine ⟨fun _ _ _ => hretryable, fun hno => ?_, job', hfound, ?_⟩
        · rw [hretryable] at hno
          cases hno
        · rw [retryable_is_transient hretryable, hretryable]
          exact herror
      · omega
  · obtain ⟨-, -, ⟨job', hb, hstatus, -, herror⟩, item, hitem⟩ := hgave hleft
    have hfound := hb.stored
    unfold Stored at hfound
    rw [hb.same.job_id] at hfound
    refine ⟨fun _ => .inr (by omega), fun _ => ⟨fun job₁ hjob₁ hretrying => ?_,
      fun _ => ⟨job', item, hfound, hstatus, hitem.items, hitem.job_id⟩, job', hfound, ?_⟩⟩
    · rw [hfound] at hjob₁
      cases hjob₁
      rw [hstatus] at hretrying
      cases hretrying
    · rw [← hclass.1, ← hclass.2]
      exact herror

theorem upstream_error_is_followed : ∃ job : Job, job.job_id = "job_a" ∧
    FollowsClass calm_env queued_parse job "tenant" "RAG_UPSTREAM_UNAVAILABLE" := by
  obtain ⟨job, hv, hid, hstatus, -⟩ := queued_parse_found
  refine ⟨job, hid, (class_is_followed_iff calm_env queued_parse job "tenant" _ hv ?_).2 (.inl rfl)⟩
  rw [hstatus]
  exact .inl rfl

/-- An error that no retry can mend is retried. -/
theorem permanent_error_is_retried : ∃ job, job.job_id = "job_a" ∧
    Visible queued_parse job (some "tenant") ∧ job.status = .queued ∧
      ¬ FollowsClass calm_env queued_parse job "tenant" "TEXT_ENCODING_UNSUPPORTED" := by
  obtain ⟨job, hv, hid, hstatus, -⟩ := queued_parse_found
  refine ⟨job, hid, hv, hstatus, fun h => ?_⟩
  have hafter : (((run_job_once calm_env "job_a" "tenant" (transient
      (some "TEXT_ENCODING_UNSUPPORTED"))).final queued_parse).store.jobs.get? "job_a").map
        (fun job => job.status) = some .retrying := by decide +kernel
  obtain ⟨job', hjob', hretrying⟩ := Option.map_eq_some_iff.1 hafter
  have hretryable := h.retried job' (by rw [hid]; exact hjob') hretrying
  cases hretryable

end bid_evaluation.retry_laws
