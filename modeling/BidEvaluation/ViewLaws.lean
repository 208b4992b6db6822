-- The view of a workflow, against the store that it is a view of. In every
-- run each job has a thread, and the view of its evaluation never shows it.
import BidEvaluation.Lib.Gives
import BidEvaluation.ReportOwners
import BidEvaluation.WorkflowState

open dict_lib stepwise bid_evaluation.values bid_evaluation.core bid_evaluation.store_ops
  bid_evaluation.store_workflow bid_evaluation.store_admin bid_evaluation.store_parse
  bid_evaluation.store_eval bid_evaluation.evaluation_nodes bid_evaluation.langgraph_runtime
  bid_evaluation.job_run bid_evaluation.operations bid_evaluation.frames
  bid_evaluation.job_steps bid_evaluation.run_steps bid_evaluation.op_steps
  bid_evaluation.job_laws bid_evaluation.endings bid_evaluation.resume_laws
  bid_evaluation.announce_laws bid_evaluation.workflow_state bid_evaluation.report_owners
open bid_evaluation.review_laws (reviewed_bid)

namespace bid_evaluation.view_laws

variable {env : Env} {w w' : World} {α β : Type} {P : α → Prop} {Q : β → Prop}

/-! ## Threads of jobs -/

def HasThread (job : Job) : Prop := job.thread_id ≠ ""

/-- Every job has a thread. -/
def Threaded (w : World) : Prop := ∀ id job, w.store.jobs.get? id = some job → HasThread job

/-- The jobs keep their threads, and `P` holds of what is returned. -/
def Threads (P : α → Prop) (m : Act α) : Prop :=
  ∀ w, Threaded w → Meets AnyStep m w fun r w' => Threaded w' ∧ Gives r P

abbrev KeepsThreads (m : Act α) : Prop := Threads (fun _ => True) m

theorem Threaded.frame {K : List Part} (h : Threaded w) (hf : Frame K w w') (hj : .jobs ∉ K) :
    Threaded w' := by
  have hjobs : w'.store.jobs = w.store.jobs := hf.same .jobs hj
  unfold Threaded
  rw [hjobs]
  exact h

section rules

theorem threads_pure {a : α} (h : P a) : Threads P (pure a) := fun _ hw =>
  meets_pure.2 ⟨hw, gives_ok.2 h⟩

theorem threads_raise (e : PyErr) : Threads P (raise e) := fun _ hw => meets_raise.2 ⟨hw, gives_error⟩

theorem threads_read : KeepsThreads read := fun _ hw => meets_read.2 ⟨hw, gives_ok.2 trivial⟩

theorem threads_lift (r : Except PyErr α) : KeepsThreads (lift r) := fun _ hw =>
  meets_lift.2 ⟨hw, fun _ _ => trivial⟩

theorem Threads.bind {m : Act α} {f : α → Act β} (h : Threads P m) (hf : ∀ a, P a → Threads Q (f a)) :
    Threads Q (m >>= f) := by
  intro w hw
  refine (h w hw).bind (fun a t ht => ?_) (fun e t ht => ?_)
  · exact hf a (gives_ok.1 ht.2) t ht.1
  · exact ⟨ht.1, gives_error⟩

theorem Threads.mono {m : Act α} {P' : α → Prop} (h : Threads P m) (hP : ∀ a, P a → P' a) : Threads P' m :=
  fun w hw => (h w hw).post fun _ _ ht => ⟨ht.1, ht.2.mono hP⟩

theorem threads_ite {c : Prop} [Decidable c] {a b : Act α} (ha : Threads P a) (hb : Threads P b) :
    Threads P (if c then a else b) := by
  split
  · exact ha
  · exact hb

theorem threads_of_touches {K : List Part} {m : Act α} (h : Touches K m) (hj : .jobs ∉ K) : KeepsThreads m :=
  fun w hw => (ends_touches h w).post fun _ _ hf => ⟨hw.frame hf hj, fun _ _ => trivial⟩

/-- Go past what writes no job. -/
theorem threads_past {K : List Part} {m : Act α} {f : α → Act β} (h : Touches K m) (hj : .jobs ∉ K)
    (hf : ∀ a, Threads Q (f a)) : Threads Q (m >>= f) :=
  (threads_of_touches h hj).bind fun a _ => hf a

theorem threads_saving {m : Act α} (h : Threads P m) : Threads P (saving env m) :=
  h.bind fun _ ha => threads_past (K := []) (touches_save_state env) (by simp) fun _ => threads_pure ha

theorem threads_catching {m : Act α} {handler : PyErr → Act α} (h : Threads P m)
    (hhandler : ∀ e, Threads P (handler e)) : Threads P (catching m handler) :=
  fun w hw => (h w hw).catching (fun _ _ ht => ht) fun e t ht => hhandler e t ht.1

end rules

/-! ## Single jobs -/

theorem Threaded.put {job : Job} (hw : Threaded w) (h : HasThread job)
    (hjobs : w'.store.jobs = w.store.jobs.put job) : Threaded w' := by
  intro id found hfound
  rw [hjobs, Table.get?_put] at hfound
  split at hfound
  · cases hfound
    exact h
  · exact hw id found hfound

theorem threads_persist {job : Job} (h : HasThread job) : Threads HasThread (persist_job job) := by
  intro w hw
  refine (persist_job.puts job w).post ?_
  rintro _ _ ⟨rfl, rfl⟩
  exact ⟨hw.put h rfl, gives_ok.2 h⟩

theorem threads_require (job_id : String) (tenant_id : Option String) :
    Threads HasThread (require_job job_id tenant_id) := by
  intro w hw
  unfold require_job
  rw [meets_bind, meets_read, then_ok]
  split
  · exact threads_raise _ w hw
  · rename_i job hjob
    have hthread := hw _ job hjob
    split
    · exact threads_pure hthread w hw
    · exact threads_past (K := []) (touches_scope _ _) (by simp) (fun _ => threads_pure hthread) w hw

theorem threads_transition (job_id : String) (status : JobStatus) (tenant_id : Option String) :
    Threads HasThread (transition_job_status env job_id status tenant_id) :=
  threads_saving ((threads_require job_id tenant_id).bind fun _ hthread =>
    threads_ite (threads_pure hthread) (threads_ite (threads_raise _) (threads_persist hthread)))

theorem threads_new_thread (kind : String) : Threads (fun s => s ≠ "") (new_thread_id env kind) := by
  refine threads_past (K := []) touches_draw (by simp) fun n => threads_pure ?_
  intro h
  have hlength := congrArg String.length h
  simp at hlength

theorem threads_ensure {job : Job} (h : HasThread job) : Threads HasThread (ensure_thread env job) :=
  threads_ite ((threads_new_thread "job").bind fun _ hthread => threads_persist hthread) (threads_pure h)

theorem threads_finish (job : Job) (status : JobStatus) (tenant_id thread_id : String)
    (evaluation_id : Option String) :
    KeepsThreads (finish env job status tenant_id thread_id evaluation_id) :=
  (threads_transition _ _ _).bind fun _ _ => threads_pure trivial

/-! ## Runs of jobs -/

theorem threads_begin (job_id tenant_id : String) : KeepsThreads (begin_run env job_id tenant_id) := by
  refine (threads_require job_id (some tenant_id)).bind fun job hjob => ?_
  refine (threads_ensure hjob).bind fun job hjob => ?_
  have hmove : KeepsThreads (move_to_running env job tenant_id) :=
    threads_ite ((threads_transition _ _ _).bind fun running _ =>
      threads_past (K := []) (touches_checkpoint env _ _ _ _ _ _) (by simp) fun _ => threads_pure trivial)
      (threads_pure trivial)
  refine hmove.bind fun running _ => ?_
  refine threads_past (K := []) (touches_start_parse env _ _) (by simp) fun _ => ?_
  have hrunning : KeepsThreads (require_running running) := threads_ite (threads_pure trivial) (threads_raise _)
  exact hrunning.bind fun _ _ => threads_pure trivial

theorem threads_retry (job : Job) (tenant_id error_code : String) :
    KeepsThreads (retry_job env job tenant_id error_code) := by
  refine (threads_transition _ _ _).bind fun retried hretried => ?_
  refine threads_past (K := []) (touches_utcnow env) (by simp) fun now => ?_
  refine threads_past (K := []) (touches_utcnow env) (by simp) fun occurred_at => ?_
  refine (threads_persist (by exact hretried)).bind fun retried _ => ?_
  refine threads_past (K := []) (touches_change_parse_manifest (fun _ => keeps_pure _) _ _) (by simp)
    fun _ => ?_
  exact threads_past (K := []) (touches_checkpoint env _ _ _ _ _ _) (by simp) fun _ => threads_pure trivial

theorem threads_dead_letter (job : Job) (tenant_id error_code : String) :
    KeepsThreads (dead_letter env job tenant_id error_code) := by
  refine (threads_transition _ _ _).bind fun _ _ => (threads_transition _ _ _).bind fun _ _ => ?_
  refine threads_past (K := [.dlq]) (touches_seed_dlq_item env (by simp) _ _ _ _) (by simp) fun item => ?_
  refine (threads_transition _ _ _).bind fun failed hfailed => ?_
  refine threads_past (K := []) (touches_utcnow env) (by simp) fun occurred_at => ?_
  exact (threads_persist (by exact hfailed)).bind fun _ _ => threads_pure trivial

theorem threads_fail (job : Job) (tenant_id : String) (force_error_code : Option String) :
    KeepsThreads (fail_job env job tenant_id force_error_code) := by
  refine (threads_dead_letter _ _ _).bind fun (item, failed) _ => ?_
  refine threads_past (K := [.documents, .chunks]) (touches_fail_parse env (by simp) (by simp) _ _ _)
    (by simp) fun _ => ?_
  exact threads_past (K := []) (touches_checkpoint env _ _ _ _ _ _) (by simp) fun _ => threads_pure trivial

theorem threads_succeed (job : Job) (tenant_id : String) : KeepsThreads (succeed_job env job tenant_id) := by
  have hmove : KeepsThreads (move_to_succeeded env job tenant_id) :=
    (threads_transition _ _ _).bind fun _ h => (threads_persist (by exact h)).mono fun _ _ => trivial
  refine hmove.bind fun succeeded _ => ?_
  refine threads_past (K := [.documents, .chunks, .index])
    (touches_succeed_parse env (by simp) (by simp) (by simp) _ _) (by simp) fun _ => ?_
  exact threads_past (K := []) (touches_checkpoint env _ _ _ _ _ _) (by simp) fun _ => threads_pure trivial

theorem threads_thread_of {f : String → Act β} (job : Job) (kind : String) (h : ∀ s, Threads Q (f s)) :
    Threads Q (thread_of env job kind >>= f) :=
  threads_past (K := []) (touches_thread_of env job kind) (by simp) h

theorem threads_evaluation (job : Job) (tenant_id : String) :
    KeepsThreads (run_evaluation_job env job tenant_id) := by
  have hcompat : ∀ thread_id report, KeepsThreads (run_compat env job tenant_id thread_id report) :=
    fun _ _ => threads_past (K := []) (touches_checkpoints env _ _ _ _) (by simp) fun _ =>
      threads_finish _ _ _ _ _
  have hgraph : KeepsThreads (run_evaluation_graph env job tenant_id) := by
    refine threads_thread_of job "eval" fun thread_id => threads_catching ?_ fun e => ?_
    · exact threads_past (K := graphParts) (touches_invoke env (by decide) (by decide) (by decide) _ _)
        (by decide) fun _ => threads_finish _ _ _ _ _
    · split
      · exact threads_finish _ _ _ _ _
      · exact threads_raise _
  have hworkflow : KeepsThreads (run_evaluation_workflow env job tenant_id) := by
    refine threads_thread_of job "eval" fun thread_id => threads_read.bind fun w _ => ?_
    refine (threads_lift _).bind fun mode _ => ?_
    cases mode with
    | compat =>
      exact threads_ite (threads_past (K := []) (touches_checkpoints env _ _ _ _) (by simp) fun _ =>
        threads_finish _ _ _ _ _) (hcompat _ _)
    | langgraph => exact threads_catching hgraph fun e => threads_ite (threads_raise _) (hcompat _ _)
  exact hworkflow.bind fun result _ =>
    threads_past (K := []) (touches_evaluation_checkpoint env _ _ _) (by simp) fun _ => threads_pure trivial

theorem threads_resume (job : Job) (tenant_id : String) : KeepsThreads (run_resume_job env job tenant_id) := by
  have hcompat : ∀ thread_id, KeepsThreads (run_resume_compat env job tenant_id thread_id) := fun _ =>
    threads_past (K := []) (touches_checkpoints env _ _ _ _) (by simp) fun _ => threads_finish _ _ _ _ _
  have hgraph : KeepsThreads (run_resume_graph env job tenant_id) := by
    refine threads_thread_of job "resume" fun thread_id => ?_
    refine Threads.bind (P := fun _ => True) (threads_catching ?_ fun e => ?_) fun _ _ => threads_finish _ _ _ _ _
    · exact threads_of_touches (K := graphParts) (touches_invoke_resume env (by decide) (by decide)
        (by decide) _) (by decide)
    · split
      · exact threads_raise _
      · exact threads_raise _
  have hworkflow : KeepsThreads (run_resume_workflow env job tenant_id) := by
    refine threads_thread_of job "resume" fun thread_id => (threads_lift _).bind fun mode _ => ?_
    cases mode with
    | compat => exact hcompat _
    | langgraph => exact threads_catching hgraph fun e => threads_ite (threads_raise _) (hcompat _)
  exact hworkflow.bind fun result _ =>
    threads_past (K := []) (touches_checkpoint env _ _ _ _ _ _) (by simp) fun _ => threads_pure trivial

theorem threads_run (job_id tenant_id : String) (flags : RunFlags) :
    KeepsThreads (run_job_once env job_id tenant_id flags) := by
  refine threads_saving ((threads_begin job_id tenant_id).bind fun job _ => threads_ite ?_ ?_)
  · exact threads_fail _ _ _
  · refine threads_ite (threads_ite (threads_retry _ _ _) (threads_fail _ _ _)) ?_
    unfold run_by_type
    split
    · exact threads_evaluation job tenant_id
    · exact threads_resume job tenant_id
    · exact threads_succeed job tenant_id

/-! ## Operations -/

theorem threads_quiet {m : Act α} (h : Threads P m) : KeepsThreads (quiet m) :=
  h.bind fun _ _ => threads_pure trivial

/-- A new job is stored with a new thread. -/
theorem threads_new {job : String → String → Job} {f : Job → Act β} (kind : String)
    (hjob : ∀ hex thread_id, (job hex thread_id).thread_id = thread_id) (hf : ∀ job, Threads Q (f job)) :
    Threads Q (do
      let hex ← uuid4_hex12 env
      let thread_id ← new_thread_id env kind
      let job ← persist_job (job hex thread_id)
      f job) := by
  refine threads_past (K := []) (touches_uuid4 env) (by simp) fun hex => ?_
  refine (threads_new_thread kind).bind fun thread_id hthread => ?_
  refine (threads_persist ?_).bind fun job _ => hf job
  unfold HasThread
  rw [hjob]
  exact hthread

theorem threads_parse_job (document_id trace_id tenant_id : String) :
    KeepsThreads (create_parse_job env document_id trace_id tenant_id) := by
  refine threads_saving (threads_past (K := []) (touches_get_document _ _) (by simp) fun document => ?_)
  cases document with
  | none => exact threads_raise _
  | some document =>
    refine threads_new "parse" (fun _ _ => rfl) fun job => ?_
    refine threads_past (K := []) (touches_new_manifest env _ _ _) (by simp) fun manifest => ?_
    refine threads_past (K := []) (touches_persist_manifest _) (by simp) fun _ => ?_
    refine threads_past (K := [.documents, .chunks]) (touches_persist_document (by simp) (by simp) _) (by simp)
      fun _ => ?_
    exact threads_past (K := [.outbox]) (touches_outbox env (by simp) _ _ _ _ _) (by simp) fun _ =>
      threads_pure trivial

theorem threads_upload (payload : UploadPayload) (has_file : Bool) :
    KeepsThreads (create_upload_job env payload has_file) := by
  refine threads_saving (threads_read.bind fun w _ => ?_)
  split
  · exact threads_pure trivial
  · refine threads_past (K := []) (touches_uuid4 env) (by simp) fun hex => ?_
    refine threads_past (K := []) (touches_put_upload env _ _ _) (by simp) fun uri => ?_
    refine threads_past (K := [.documents, .chunks]) (touches_persist_document (by simp) (by simp) _) (by simp)
      fun _ => ?_
    refine threads_past (K := [.chunks]) (touches_persist_chunks env (by simp) _ _ _) (by simp) fun _ => ?_
    exact (threads_parse_job _ _ _).bind fun _ _ => threads_pure trivial

theorem threads_create_evaluation (payload : EvaluationPayload) :
    KeepsThreads (create_evaluation_job env payload) := by
  refine threads_saving (threads_past (K := []) (touches_uuid4 env) (by simp) fun evaluation_hex => ?_)
  refine threads_past (K := []) (touches_uuid4 env) (by simp) fun job_hex => ?_
  refine (threads_new_thread "eval").bind fun thread_id hthread => ?_
  refine threads_past (K := [.tokens, .reports]) (touches_nodes env (by simp) (by simp) _) (by simp) fun _ => ?_
  refine (threads_persist (by exact hthread)).bind fun job _ => ?_
  exact threads_past (K := [.outbox]) (touches_outbox env (by simp) _ _ _ _ _) (by simp) fun _ =>
    threads_pure trivial

theorem threads_create_resume (evaluation_id : String) (payload : ResumePayload) :
    KeepsThreads (create_resume_job env evaluation_id payload) := by
  refine threads_saving (threads_past (K := []) (touches_uuid4 env) (by simp) fun hex => ?_)
  refine threads_read.bind fun w _ => ?_
  have hthread : ∀ report, Threads (fun s => s ≠ "") (resume_thread_id env report) := by
    intro report
    unfold resume_thread_id
    dsimp only
    split
    · exact threads_new_thread "resume"
    · rename_i hsome
      exact threads_pure hsome
  refine (hthread _).bind fun thread_id hsome => ?_
  refine (threads_persist (by exact hsome)).bind fun job _ => ?_
  have hclear : ∀ report, Touches [.reports] (clear_review env report) := by
    intro report
    cases report with
    | none => exact keeps_pure _
    | some report => exact touches_persist_report env (by simp) _
  refine threads_past (hclear _) (by simp) fun _ => ?_
  refine threads_past (K := []) (touches_audit env _ _ _) (by simp) fun _ => ?_
  exact threads_past (K := [.outbox]) (touches_outbox env (by simp) _ _ _ _ _) (by simp) fun _ =>
    threads_pure trivial

theorem threads_execute_resume (evaluation_id resume_token : String) (payload : ResumePayload) :
    KeepsThreads (execute_resume env evaluation_id resume_token payload) :=
  threads_past (K := [.tokens]) (touches_consume_token env (by simp) _ _ _) (by simp) fun _ =>
    threads_ite (threads_create_resume evaluation_id payload) (threads_raise _)

theorem threads_cancel (job_id tenant_id : String) : KeepsThreads (cancel_job env job_id tenant_id) := by
  refine threads_saving ((threads_require job_id (some tenant_id)).bind fun job hjob =>
    threads_ite (threads_raise _) fun w hw => ?_)
  have hcancelled : HasThread (cancelled_job job) := hjob
  exact meets_write.2 ⟨trivial, hw.put hcancelled rfl, fun _ _ => trivial⟩

theorem threads_requeue (dlq_id trace_id tenant_id : String) :
    KeepsThreads (requeue_dlq_item env dlq_id trace_id tenant_id) := by
  refine threads_saving (threads_read.bind fun w _ => ?_)
  split
  · exact threads_raise _
  · refine threads_ite (threads_raise _) (threads_new "requeue" (fun _ _ => rfl) fun job => ?_)
    refine threads_past (K := [.dlq]) (touches_persist_dlq_item (by simp) _) (by simp) fun _ => ?_
    exact threads_past (K := []) (touches_audit env _ _ _) (by simp) fun _ => threads_pure trivial

theorem threads_discard (dlq_id reason reviewer_id reviewer_id_2 tenant_id trace_id : String) :
    KeepsThreads (discard_dlq_item env dlq_id reason reviewer_id reviewer_id_2 tenant_id trace_id) := by
  refine threads_saving (threads_read.bind fun w _ => ?_)
  split
  · exact threads_raise _
  · refine threads_ite (threads_raise _) (threads_ite (threads_raise _) ?_)
    refine threads_past (K := [.dlq]) (touches_persist_dlq_item (by simp) _) (by simp) fun _ => ?_
    exact threads_of_touches (K := []) (touches_audit env _ _ _) (by simp)

theorem threads_rollback (release_id tenant_id trace_id : String) (trigger_gate : Option String) :
    KeepsThreads (execute_rollback env release_id tenant_id trace_id trigger_gate) := by
  apply threads_saving
  cases trigger_gate with
  | none => exact threads_pure trivial
  | some gate =>
    refine threads_past (K := []) (touches_audit env _ _ _) (by simp) fun _ => ?_
    refine threads_new "replay" (fun _ _ => rfl) fun job => ?_
    refine (threads_run _ _ _).bind fun _ _ => ?_
    exact threads_of_touches (K := []) (touches_audit env _ _ _) (by simp)

theorem threads_op (op : Op) : KeepsThreads (op.act env) := by
  cases op with
  | upload payload has_file => exact threads_quiet (threads_upload _ _)
  | create_parse_job document_id trace_id tenant_id => exact threads_quiet (threads_parse_job _ _ _)
  | create_evaluation_job payload => exact threads_quiet (threads_create_evaluation _)
  | consume_resume_token evaluation_id resume_token tenant_id =>
    exact threads_quiet (threads_of_touches (K := [.tokens]) (touches_consume_token env (by simp) _ _ _)
      (by simp))
  | create_resume_job evaluation_id payload => exact threads_quiet (threads_create_resume _ _)
  | resume evaluation_id resume_token payload => exact threads_quiet (threads_execute_resume _ _ _)
  | run_job_once job_id tenant_id flags => exact threads_quiet (threads_run _ _ _)
  | transition_job_status job_id new_status tenant_id => exact threads_quiet (threads_transition _ _ _)
  | cancel_job job_id tenant_id => exact threads_cancel _ _
  | seed_dlq_item job_id error_class error_code tenant_id =>
    exact threads_quiet (threads_of_touches (K := [.dlq]) (touches_seed_dlq_item env (by simp) _ _ _ _)
      (by simp))
  | requeue_dlq_item dlq_id trace_id tenant_id => exact threads_quiet (threads_requeue _ _ _)
  | discard_dlq_item dlq_id reason reviewer_id reviewer_id_2 tenant_id trace_id =>
    exact threads_discard _ _ _ _ _ _
  | execute_rollback release_id tenant_id trace_id trigger_gate => exact threads_rollback _ _ _ _

theorem threaded_start : Threaded World.start := by
  intro id job hjob
  simp [World.start, Store.empty] at hjob

theorem threaded_after (h : Threaded w) (ops : List Op) : Threaded (after env w ops) := by
  induction ops generalizing w with
  | nil => exact h
  | cons op rest ih => exact ih (threads_op op w h).2.1

/-! ## The job of an evaluation -/

/-- The job of the evaluation, as long as it is stored. -/
def EvaluationJob (evaluation_id tenant_id : String) (job : Job) : Prop :=
  job.job_type = .evaluation ∧ job.resource_id = evaluation_id ∧ job.tenant_id = tenant_id

/-- A creation that returns has stored the job. -/
theorem create_evaluation_job.stores (env : Env) (payload : EvaluationPayload) (w : World) :
    Meets AnyStep (create_evaluation_job env payload) w fun r t => Gives r fun ids =>
      ∃ job, t.store.jobs.get? ids.2 = some job ∧ EvaluationJob ids.1 payload.tenant_id job := by
  unfold create_evaluation_job
  refine any_saving ?_ (fun ids t t' h hf => ?_)
  · refine past_parts (K := []) (touches_uuid4 env) (fun evaluation_hex t₁ _ => ?_) fun _ _ _ => gives_error
    refine past_parts (K := []) (touches_uuid4 env) (fun job_hex t₂ _ => ?_) fun _ _ _ => gives_error
    refine past_parts (K := []) (touches_new_thread_id env "eval") (fun thread_id t₃ _ => ?_)
      fun _ _ _ => gives_error
    refine past_parts (K := [.tokens, .reports]) (touches_nodes env (by simp) (by simp) _) (fun _ t₄ _ => ?_)
      fun _ _ _ => gives_error
    refine (persist_job.puts _ t₄).bind ?_ (by rintro e t ⟨he, -⟩; cases he)
    rintro job t₅ ⟨hjob, hput⟩
    refine past_parts (K := [.outbox]) (touches_outbox env (by simp) _ _ _ _ _) (fun _ t₆ hf => ?_)
      fun _ _ _ => gives_error
    refine meets_pure.2 (gives_ok.2 ⟨job, ?_, ?_⟩)
    · have hjobs : t₆.store.jobs = t₅.store.jobs := hf.same .jobs (by simp)
      rw [hjobs, hput]
      cases hjob
      exact Table.get?_put_self _ _
    · cases hjob
      exact ⟨rfl, rfl, rfl⟩
  · have hjobs : t'.store.jobs = t.store.jobs := hf.same .jobs (by simp)
    rw [hjobs]
    exact h

/-! ## The view -/

/-- The id of the last checkpoint that was recorded on the thread. -/
def last_checkpoint_id (s : Store) (thread_id : String) : Option String :=
  (((s.workflow_checkpoints.get? thread_id).getD []).getLast?).map (fun cp => cp.checkpoint_id)

/-- What the view shows is what the store has of the evaluation. -/
structure Shows (s : Store) (payload : EvaluationPayload) (job : Job) (state : WorkflowState) : Prop where
  thread_id : state.trace.thread_id = job.thread_id
  project_id : state.identity.project_id = some payload.project_id
  rule_pack_version : state.inputs.rule_pack_version = some payload.rule_pack_version
  checkpoint_id : state.trace.checkpoint_id = last_checkpoint_id s job.thread_id
  errors : state.runtime.errors = (job_errors job).map .of_job

/-- The tenant gets a view of the evaluation, and it matches the store. -/
def ViewMatches (evaluation_id job_id : String) (payload : EvaluationPayload) (w : World) : Prop :=
  ∃ state job, (get_workflow_state evaluation_id payload.tenant_id).result w = .ok (some state) ∧
    w.store.jobs.get? job_id = some job ∧ Shows w.store payload job state

/-- Every view drops the same four fields. -/
structure Drops (state : WorkflowState) : Prop where
  thread_id : state.trace.thread_id = ""
  checkpoint_id : state.trace.checkpoint_id = none
  project_id : state.identity.project_id = none
  rule_pack_version : state.inputs.rule_pack_version = none

theorem get_workflow_state.drops (evaluation_id tenant_id : String) (w : World) :
    Meets AnyStep (get_workflow_state evaluation_id tenant_id) w fun r _ => Gives r fun view =>
      ∀ state ∈ view, Drops state := by
  unfold get_workflow_state
  refine ((keeps_true _).meets w).bind (fun report t _ => ?_) fun _ _ _ => gives_error
  cases report with
  | none => exact meets_pure.2 (gives_ok.2 (by simp))
  | some report =>
    rw [meets_bind, meets_read, then_ok, meets_pure, gives_ok]
    rintro state ⟨⟩
    exact ⟨rfl, rfl, rfl, rfl⟩

/-- The job has a thread, and the view has none. -/
theorem Threaded.never_matches (h : Threaded w) {evaluation_id job_id : String} {payload : EvaluationPayload} :
    ¬ViewMatches evaluation_id job_id payload w := by
  rintro ⟨state, job, hstate, hjob, hshows⟩
  have hdrops := (get_workflow_state.drops evaluation_id payload.tenant_id w).2 _ hstate state rfl
  exact h job_id job hjob (hshows.thread_id.symm.trans hdrops.thread_id)

/-- After any other operations, runs of jobs and resumes among them, the
tenant of an evaluation gets a view of it, and the view never matches the
store. -/
theorem workflow_state_never_matches (env : Env) (before later : List Op) (payload : EvaluationPayload)
    (evaluation_id job_id : String) (hcreated : (create_evaluation_job env payload).result
      (after env World.start before) = .ok (evaluation_id, job_id)) :
    (∃ state, (get_workflow_state evaluation_id payload.tenant_id).result
      (after env World.start (before ++ .create_evaluation_job payload :: later)) = .ok (some state)) ∧
    ¬ViewMatches evaluation_id job_id payload
      (after env World.start (before ++ .create_evaluation_job payload :: later)) := by
  refine ⟨?_, (threaded_after threaded_start _).never_matches⟩
  obtain ⟨job, hjob, htype, hresource, htenant⟩ :=
    (create_evaluation_job.stores env payload (after env World.start before)).2 _ hcreated
  have hmade : Kept job_id job (after env World.start (before ++ [.create_evaluation_job payload])) := by
    refine ⟨job, ?_, rfl, rfl, rfl⟩
    rw [after, List.foldl_append]
    exact (congrArg (fun t => t.store.jobs.get? job_id) (final_quiet _ _)).trans hjob
  have hsplit : after env World.start (before ++ .create_evaluation_job payload :: later) =
      after env (after env World.start (before ++ [.create_evaluation_job payload])) later := by
    simp [after]
  have hkept := (kept_after later (named_reached (reached_after env _)) hmade).1
  rw [← hsplit] at hkept
  obtain ⟨found, hfound, hwork⟩ := hkept
  have hreport := (owned_from owned_start _).jobs job_id found hfound (hwork.job_type.trans htype)
  rw [hwork.resource_id, hwork.tenant_id, hresource, htenant] at hreport
  obtain ⟨report, hreport, howner⟩ := hreport
  obtain ⟨state, hstate, -⟩ := get_workflow_state.reads hreport howner
  exact ⟨state, hstate⟩

/-! ## An evaluation that is run -/

def run_bid : Op := .run_job_once "job_a" "tenant" ⟨false, false, none⟩

theorem bid_is_created : (create_evaluation_job calm_env reviewed_bid).result World.start =
    .ok ("ev_", "job_a") := by
  apply ok_of_toOption
  decide +kernel

/-- The reviewer's tenant gets a view of the bid, which does not match. -/
theorem bid_view_is_given :
    (∃ state, (get_workflow_state "ev_" "tenant").result
      (after calm_env World.start ([] ++ .create_evaluation_job reviewed_bid :: [run_bid])) = .ok (some state)) ∧
    ¬ViewMatches "ev_" "job_a" reviewed_bid
      (after calm_env World.start ([] ++ .create_evaluation_job reviewed_bid :: [run_bid])) :=
  workflow_state_never_matches calm_env [] [run_bid] reviewed_bid "ev_" "job_a" bid_is_created

/-- After the creation and a run the view of the bid has no thread, and the
job has one. -/
theorem bid_view_has_no_thread :
    ((after calm_env World.start [.create_evaluation_job reviewed_bid, run_bid]).store.jobs.get? "job_a").map
        (fun job => job.thread_id) = some "thr_eval_0123456789" ∧
      ¬ViewMatches "ev_" "job_a" reviewed_bid
        (after calm_env World.start [.create_evaluation_job reviewed_bid, run_bid]) := by
  have hthread : ((after calm_env World.start
      [.create_evaluation_job reviewed_bid, run_bid]).store.jobs.get? "job_a").map
        (fun job => job.thread_id) = some "thr_eval_0123456789" := by decide +kernel
  refine ⟨hthread, ?_⟩
  rintro ⟨state, job, hstate, hjob, hshows⟩
  have hdrops := (get_workflow_state.drops "ev_" "tenant" _).2 _ hstate state rfl
  rw [hjob, Option.map_some, Option.some_inj, ← hshows.thread_id, hdrops.thread_id] at hthread
  exact absurd hthread (by decide)

end bid_evaluation.view_laws
