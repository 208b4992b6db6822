-- The laws of the requeue of a dead letter item. The new job only names the
-- job that failed: its type is `requeue`, for which a run has no branch of its
-- own, so it succeeds and nothing is parsed.
import BidEvaluation.ParseLaws

open dict_lib stepwise bid_evaluation.values bid_evaluation.core bid_evaluation.store_ops
  bid_evaluation.store_admin bid_evaluation.job_run bid_evaluation.operations
  bid_evaluation.frames bid_evaluation.job_steps bid_evaluation.run_steps
  bid_evaluation.op_steps bid_evaluation.job_laws bid_evaluation.endings
  bid_evaluation.parse_laws

namespace bid_evaluation.requeue_laws

variable {env : Env} {w : World}

/-! ## The requeue -/

/-- The parts that a requeue, and the run of its job, can change. -/
def requeueParts : List Part := [.jobs, .dlq]

theorem touches_requeue (env : Env) (dlq_id trace_id tenant_id : String) :
    Touches requeueParts (requeue_dlq_item env dlq_id trace_id tenant_id) := by
  refine touches_saving (keeps_bind keeps_read fun w => ?_)
  split
  · exact keeps_raise _
  · refine keeps_ite (keeps_raise _) ?_
    refine keeps_bind (touches_uuid4 env) fun hex => keeps_bind (touches_new_thread_id env _)
      fun thread_id => ?_
    refine keeps_bind (touches_persist_job (by decide) _) fun job => ?_
    refine keeps_bind (touches_persist_dlq_item (by decide) _) fun item => ?_
    exact keeps_bind (touches_audit env _ _ _) fun _ => keeps_pure _

/-- The store has a job of that name and that type. -/
def HasJob (w : World) (job_id : String) (job_type : JobType) : Prop :=
  ∃ job, w.store.jobs.get? job_id = some job ∧ job.job_type = job_type

theorem persist_job.any (job : Job) (w : World) :
    Meets AnyStep (persist_job job) w (fun r w' => r = .ok job ∧ Put w w' job) := by
  simp only [persist_job, update, meets_bind, meets_write, then_ok, meets_pure, any_step,
    true_and]
  refine ⟨rfl, fun p hp => ?_, Nat.le_refl _⟩
  cases p <;> first | rfl | exact absurd List.mem_cons_self hp

/-- A requeue that returns has made a job of the type `requeue`. -/
theorem requeue_dlq_item.creates (env : Env) (dlq_id trace_id tenant_id : String) (w : World) :
    Meets AnyStep (requeue_dlq_item env dlq_id trace_id tenant_id) w (fun r w' =>
      ∀ job_id, r = .ok job_id → HasJob w' job_id .requeue) := by
  have hsame : ∀ {t t' : World} {job_id : String} {K : List Part}, HasJob t job_id .requeue →
      Frame K t t' → .jobs ∉ K → HasJob t' job_id .requeue := by
    rintro t t' job_id K ⟨job, hjob, htype⟩ hf hK
    have hjobs : t'.store.jobs = t.store.jobs := hf.same .jobs hK
    exact ⟨job, hjobs ▸ hjob, htype⟩
  unfold requeue_dlq_item
  refine any_saving ?_ (fun a t t' h hf job_id hr => hsame (h job_id hr) hf (by simp))
  simp only [meets_bind, meets_read, then_ok]
  split
  · simp [dlq_item_not_found, raise_api]
  · rw [meets_ite]
    refine ⟨fun _ => by simp [raise_api], fun _ => ?_⟩
    refine past_return (K := []) (touches_uuid4 env) (returns_uuid4 env) fun hex t₁ _ => ?_
    refine past_return (K := []) (touches_new_thread_id env "requeue")
      (returns_new_thread_id env "requeue") fun thread_id t₂ _ => ?_
    refine (persist_job.any _ t₂).bind ?_ (by rintro e t ⟨he, -⟩; cases he)
    rintro job t₃ ⟨⟨⟩, hput⟩
    refine past_parts (K := [.dlq]) (touches_persist_dlq_item (by simp) _) (fun item t₄ hf₄ => ?_)
      (by rintro e t - job_id ⟨⟩)
    refine past_parts (K := []) (touches_audit env _ _ _) (fun _ t₅ hf₅ => ?_)
      (by rintro e t - job_id ⟨⟩)
    rw [meets_pure]
    rintro job_id ⟨⟩
    exact hsame (hsame ⟨_, hput.stored, rfl⟩ hf₄ (by simp)) hf₅ (by simp)

/-! ## The run of the new job -/

theorem touches_retry (env : Env) {job : Job} (htype : job.job_type = .requeue)
    (tenant_id error_code : String) :
    Touches requeueParts (retry_job env job tenant_id error_code) := by
  refine keeps_bind (touches_transition env (by decide) _ _ _) fun retried => ?_
  refine keeps_bind (touches_utcnow env) fun now => keeps_bind (touches_utcnow env) fun at_ => ?_
  refine keeps_bind (touches_persist_job (by decide) _) fun retried => ?_
  refine keeps_bind ?_ fun _ => keeps_bind (touches_checkpoint env _ _ _ _ _ _) fun _ =>
    keeps_pure _
  unfold change_parse_manifest
  rw [htype]
  exact keeps_pure _

theorem touches_dead_letter (env : Env) (job : Job) (tenant_id error_code : String) :
    Touches requeueParts (dead_letter env job tenant_id error_code) := by
  refine keeps_bind (touches_transition env (by decide) _ _ _) fun _ => ?_
  refine keeps_bind (touches_transition env (by decide) _ _ _) fun _ => ?_
  refine keeps_bind (touches_seed_dlq_item env (by decide) _ _ _ _) fun item => ?_
  refine keeps_bind (touches_transition env (by decide) _ _ _) fun failed => ?_
  refine keeps_bind (touches_utcnow env) fun now => ?_
  exact keeps_bind (touches_persist_job (by decide) _) fun _ => keeps_pure _

theorem touches_fail (env : Env) {job : Job} (htype : job.job_type = .requeue)
    (tenant_id : String) (force_error_code : Option String) :
    Touches requeueParts (fail_job env job tenant_id force_error_code) := by
  refine keeps_bind (touches_dead_letter env _ _ _) fun (item, failed) => ?_
  refine keeps_bind ?_ fun _ => keeps_bind (touches_checkpoint env _ _ _ _ _ _) fun _ =>
    keeps_pure _
  unfold fail_parse
  rw [htype]
  exact keeps_pure _

theorem touches_succeed (env : Env) {job : Job} (htype : job.job_type = .requeue)
    (tenant_id : String) : Touches requeueParts (succeed_job env job tenant_id) := by
  refine keeps_bind ?_ fun succeeded => ?_
  · exact keeps_bind (touches_transition env (by decide) _ _ _) fun _ =>
      touches_persist_job (by decide) _
  · refine keeps_bind ?_ fun _ => keeps_bind (touches_checkpoint env _ _ _ _ _ _) fun _ =>
      keeps_pure _
    unfold succeed_parse
    rw [htype]
    exact keeps_pure _

/-- Whatever its flags, a run of a job of this type changes no document, no
chunk and nothing in the index. -/
theorem touches_requeue_run (env : Env) {job : Job} (htype : job.job_type = .requeue)
    (tenant_id : String) (flags : RunFlags) :
    Touches requeueParts (run_started env job tenant_id flags) := by
  refine keeps_ite (touches_fail env htype _ _) (keeps_ite ?_ ?_)
  · exact keeps_ite (touches_retry env htype _ _) (touches_fail env htype _ _)
  · unfold run_by_type
    rw [htype]
    exact touches_succeed env htype tenant_id

theorem requeue_run.frame {job_id : String} (h : HasJob w job_id .requeue) (env : Env)
    (tenant_id : String) (flags : RunFlags) :
    Frame requeueParts w ((run_job_once env job_id tenant_id flags).final w) := by
  obtain ⟨job, hjob, htype⟩ := h
  have hbegin : Meets (Step env anyJob) (begin_run env job_id tenant_id) w _ :=
    begin_run.spec any_free w job_id tenant_id
  have hrun : Meets AnyStep (run_job_once env job_id tenant_id flags) w
      (fun _ w' => Frame requeueParts w w') := by
    unfold run_job_once
    refine any_saving ((meets_any hbegin).bind ?_ ?_) ?_
    · rintro started t ⟨hf, found, rfl, hv, -, hb, -⟩
      have hfound : found = job := Option.some.inj (hv.stored.symm.trans hjob)
      have hstarted : started.job_type = .requeue := by
        rw [hb.same.job_type, hfound, htype]
      refine (ends_touches (touches_requeue_run env hstarted tenant_id flags) t).post ?_
      exact fun r w' hf' => (hf.mono (by decide)).trans hf'
    · exact fun e t h => h.1.mono (by decide)
    · exact fun _ t t' hf hf' => hf.trans (hf'.mono (by simp))
  exact hrun.2

/-! ## The laws -/

/-- The work of a parse job: its document has chunks and is marked. -/
structure Parsed (w : World) (document_id : String) : Prop where
  chunks : chunksOf w document_id ≠ []
  indexed : DocumentIndexed w document_id

theorem parsed_iff_of_frame {w' : World} {document_id : String} (h : Frame requeueParts w w') :
    Parsed w' document_id ↔ Parsed w document_id := by
  have hchunks : chunksOf w' document_id = chunksOf w document_id := chunksOf_frame h (by decide) _
  have hindexed : DocumentIndexed w' document_id ↔ DocumentIndexed w document_id :=
    indexed_iff_of_same (h.same .documents (by decide))
  exact ⟨fun hp => ⟨hchunks ▸ hp.chunks, hindexed.1 hp.indexed⟩,
    fun hp => ⟨hchunks ▸ hp.chunks, hindexed.2 hp.indexed⟩⟩

/-- The tenant has requeued the item of a parse job whose document has no
chunks, and `job_id` is the new job. -/
structure Requeued (env : Env) (w : World) (dlq_id trace_id tenant_id job_id document_id : String) :
    Prop where
  source : ∃ item job, get_dlq_item w.store dlq_id tenant_id = some item ∧
    w.store.jobs.get? item.job_id = some job ∧ job.job_type = .parse ∧
    job.resource_id = document_id
  no_chunks : chunksOf w document_id = []
  accepted : (requeue_dlq_item env dlq_id trace_id tenant_id).result w = .ok job_id

/-- When the new job has been run to its success, the document is parsed
exactly when it was parsed before that run by other jobs. With nothing between
the requeue and the run it never is. -/
theorem requeued_work_is_done_iff (env : Env) (before between : List Op)
    (dlq_id trace_id tenant_id job_id document_id runner : String) (flags : RunFlags) :
    let w := after env World.start before
    let t := after env ((requeue_dlq_item env dlq_id trace_id tenant_id).final w) between
    Requeued env w dlq_id trace_id tenant_id job_id document_id →
    (∃ result, (run_job_once env job_id runner flags).result t = .ok result ∧
      result.final_status = .succeeded) →
    (Parsed ((run_job_once env job_id runner flags).final t) document_id ↔
      Parsed t document_id) ∧
    (between = [] → ¬ Parsed ((run_job_once env job_id runner flags).final t) document_id) := by
  intro w t hrequeued _
  have hn : Named env w := named_reached (reached_after env before)
  obtain ⟨job, hjob, htype⟩ :=
    (requeue_dlq_item.creates env dlq_id trace_id tenant_id w).2 job_id hrequeued.accepted
  have hn' : Named env ((requeue_dlq_item env dlq_id trace_id tenant_id).final w) :=
    named_last hn (requeue_dlq_item.spec any_new hn dlq_id trace_id tenant_id).1
  obtain ⟨⟨job', hjob', hwork⟩, -⟩ := kept_after between hn' ⟨job, hjob, ⟨rfl, rfl, rfl⟩⟩
  have hframe := requeue_run.frame ⟨job', hjob', hwork.job_type.trans htype⟩ env runner flags
  have hiff : Parsed ((run_job_once env job_id runner flags).final t) document_id ↔
      Parsed t document_id := parsed_iff_of_frame hframe
  refine ⟨hiff, ?_⟩
  rintro rfl hparsed
  have hstart := (touches_requeue env dlq_id trace_id tenant_id).frame w
  have hbefore : Parsed w document_id := (parsed_iff_of_frame hstart).1 (hiff.1 hparsed)
  exact hbefore.chunks hrequeued.no_chunks

/-! ## A parse job that was given up -/

/-- The parse job of an uploaded file was told to fail and has an item. -/
def given_up : List Op :=
  [.upload bid_file true, .run_job_once "job_aa" "tenant" ⟨true, false, none⟩]

/-- The item is requeued, and nothing else happens. -/
def requeued : World :=
  (requeue_dlq_item calm_env "dlq_aaaaaaaaaa" "trace" "tenant").final
    (after calm_env World.start given_up)

theorem given_up_is_requeued : Requeued calm_env (after calm_env World.start given_up)
    "dlq_aaaaaaaaaa" "trace" "tenant" "job_aaaaaaaaaaaaaaa" "doc_" := by
  have hitem : (get_dlq_item (after calm_env World.start given_up).store "dlq_aaaaaaaaaa"
      "tenant").map (fun item => item.job_id) = some "job_aa" := by decide +kernel
  have hjob : ((after calm_env World.start given_up).store.jobs.get? "job_aa").map
      (fun job => (job.job_type, job.resource_id)) = some (.parse, "doc_") := by decide +kernel
  have hchunks : (chunksOf (after calm_env World.start given_up) "doc_").length = 0 := by
    decide +kernel
  have haccepted : ((requeue_dlq_item calm_env "dlq_aaaaaaaaaa" "trace" "tenant").result
      (after calm_env World.start given_up)).toOption = some "job_aaaaaaaaaaaaaaa" := by
    decide +kernel
  obtain ⟨item, hitem, hid⟩ := Option.map_eq_some_iff.1 hitem
  obtain ⟨job, hjob, hfields⟩ := Option.map_eq_some_iff.1 hjob
  simp only [Prod.mk.injEq] at hfields
  exact ⟨⟨item, job, hitem, hid ▸ hjob, hfields.1, hfields.2⟩, List.length_eq_zero_iff.1 hchunks,
    ok_of_toOption haccepted⟩

theorem requeued_job_succeeds : ∃ result,
    (run_job_once calm_env "job_aaaaaaaaaaaaaaa" "tenant" RunFlags.default).result requeued =
      .ok result ∧ result.final_status = .succeeded := by
  have hrun : ((run_job_once calm_env "job_aaaaaaaaaaaaaaa" "tenant" RunFlags.default).result
      requeued).toOption.map (fun result => result.final_status) = some .succeeded := by
    decide +kernel
  obtain ⟨result, hresult, hstatus⟩ := Option.map_eq_some_iff.1 hrun
  exact ⟨result, ok_of_toOption hresult, hstatus⟩

/-- The law at this item, with nothing between the requeue and the run. -/
theorem requeued_bid_stays_unparsed :
    ¬ Parsed ((run_job_once calm_env "job_aaaaaaaaaaaaaaa" "tenant" RunFlags.default).final
      requeued) "doc_" :=
  (requeued_work_is_done_iff calm_env given_up [] "dlq_aaaaaaaaaa" "trace" "tenant"
    "job_aaaaaaaaaaaaaaa" "doc_" "tenant" RunFlags.default given_up_is_requeued
    requeued_job_succeeds).2 rfl

/-- The new job has succeeded, and no chunk of the file is there, though the
parser would find one. -/
theorem requeued_bid_has_no_chunk :
    Requeued calm_env (after calm_env World.start given_up) "dlq_aaaaaaaaaa" "trace" "tenant"
      "job_aaaaaaaaaaaaaaa" "doc_" ∧
    (∃ result, (run_job_once calm_env "job_aaaaaaaaaaaaaaa" "tenant"
      RunFlags.default).result requeued = .ok result ∧ result.final_status = .succeeded) ∧
    ¬ Parsed ((run_job_once calm_env "job_aaaaaaaaaaaaaaa" "tenant" RunFlags.default).final
      requeued) "doc_" := by
  have hchunks : (chunksOf ((run_job_once calm_env "job_aaaaaaaaaaaaaaa" "tenant"
      RunFlags.default).final requeued) "doc_").length = 0 := by decide +kernel
  exact ⟨given_up_is_requeued, requeued_job_succeeds, fun hparsed =>
    hparsed.chunks (List.length_eq_zero_iff.1 hchunks)⟩

end bid_evaluation.requeue_laws
