-- When a token is replaced, and by which call. A run replaces a token only
-- in the gate of the graph, and only if the gate sends the evaluation to a
-- review. A creation replaces no token but that of its new evaluation.
import BidEvaluation.ResumeLaws

open dict_lib stepwise bid_evaluation.values bid_evaluation.core bid_evaluation.store_ops
  bid_evaluation.store_workflow bid_evaluation.store_admin bid_evaluation.store_eval
  bid_evaluation.evaluation_nodes bid_evaluation.langgraph_runtime bid_evaluation.job_run
  bid_evaluation.operations bid_evaluation.frames bid_evaluation.job_steps
  bid_evaluation.run_steps bid_evaluation.op_steps bid_evaluation.endings
  bid_evaluation.job_laws bid_evaluation.review_steps bid_evaluation.review_laws
  bid_evaluation.token_laws bid_evaluation.resume_laws

namespace bid_evaluation.agreement_steps

variable {env : Env} {w w' : World}

/-! ## Programs that issue tokens -/

/-- The program leaves the tokens as they are, unless the decision, made at
its start, is `a`. -/
def IssuesWhen (decision : Act α) (a : α) (m : Act β) : Prop :=
  ∀ w, Meets AnyStep m w (fun _ w' =>
    w'.store.resume_tokens = w.store.resume_tokens ∨ decision.result w = .ok a)

section issues

variable {decision : Act α} {a : α} {m : Act β} {K : List Part}

theorem issues_of_touches (h : Touches K m) (hK : .tokens ∉ K) : IssuesWhen decision a m := by
  intro w
  refine (ends_touches h w).post ?_
  intro _ _ hf
  exact .inl (hf.same .tokens hK)

/-- The program and the decision begin alike, and no token changes there. -/
theorem issues_alike {p : Act γ} {d : γ → Act α} {f : γ → Act β} (hp : Touches K p)
    (hK : .tokens ∉ K) (h : ∀ c, IssuesWhen (d c) a (f c)) :
    IssuesWhen (p >>= d) a (p >>= f) := by
  intro w
  have hf := hp.frame w
  refine ((keeps_true p).ends w).bind ?_ ?_
  · rintro c t ⟨hc, rfl⟩
    refine (h c _).post ?_
    rintro r t' (hsame | hdecision)
    · exact .inl (hsame.trans (hf.same .tokens hK))
    · exact .inr ((result_bind hc.symm).trans hdecision)
  · rintro e t ⟨-, rfl⟩
    exact .inl (hf.same .tokens hK)

theorem issues_then {f : β → Act γ} (h : IssuesWhen decision a m) (hf : ∀ b, Touches K (f b))
    (hK : .tokens ∉ K) : IssuesWhen decision a (m >>= f) := by
  intro w
  refine (h w).bind ?_ (fun _ _ h => h)
  intro b t hb
  refine (ends_touches (hf b) t).post ?_
  intro _ t' hframe
  have hsame : t'.store.resume_tokens = t.store.resume_tokens := hframe.same .tokens hK
  rw [hsame]
  exact hb

theorem issues_catching {handler : PyErr → Act β} (h : IssuesWhen decision a m)
    (hh : ∀ e, Touches K (handler e)) (hK : .tokens ∉ K) :
    IssuesWhen decision a (catching m handler) := by
  intro w
  refine (h w).catching (fun _ _ h => h) ?_
  intro e t he
  refine (ends_touches (hh e) t).post ?_
  intro _ t' hframe
  have hsame : t'.store.resume_tokens = t.store.resume_tokens := hframe.same .tokens hK
  rw [hsame]
  exact he

/-- The decision may be told in other words. -/
theorem issues_told (g : α → δ) (h : IssuesWhen decision a m) :
    IssuesWhen (decision >>= fun x => pure (g x)) (g a) m := by
  intro w
  refine (h w).post ?_
  rintro r t (hsame | hdecision)
  · exact .inl hsame
  · exact .inr (result_bind hdecision)

end issues

/-! ## The gate of the graph -/

/-- The decision of the gate, when it is reached with the state. -/
def sends_to_review (env : Env) (state : EvaluationState) : Act Bool := do
  graph_fault env
  let w ← read
  pure (hitl_reasons env state (gate_numbers env w.store state) ≠ [])

theorem gate_issues (state : EvaluationState) :
    IssuesWhen (do
      let w ← read
      pure (decide (hitl_reasons env state (gate_numbers env w.store state) ≠ []))) true
      (node_quality_gate env state) := by
  intro w
  unfold node_quality_gate issue_resume_token
  rw [meets_bind, meets_read, then_ok, result_read]
  dsimp only
  generalize hitl_reasons env state (gate_numbers env w.store state) = reasons
  by_cases hpass : reasons = []
  · rw [if_pos hpass, meets_bind, meets_pure, then_ok, meets_pure]
    exact .inl rfl
  · have hdecision : (pure (decide (reasons ≠ [])) : Act Bool).result w = .ok true := by
      rw [decide_eq_true hpass]
      rfl
    exact ⟨keeps_true _ w, .inr hdecision⟩

theorem graph_gate_issues (id : WorkflowIdentity) (resuming : Bool) (state : EvaluationState) :
    IssuesWhen (sends_to_review env state) true
      (graph_node env id resuming state .quality_gate) := by
  unfold graph_node sends_to_review
  refine issues_alike (K := []) (touches_graph_fault env) (by simp) fun _ => ?_
  rw [if_pos rfl]
  unfold quality_gate_node
  refine issues_then (K := [.interrupted]) (gate_issues state) (fun merged => ?_) (by simp)
  refine keeps_ite ?_ ?_
  · refine keeps_bind (touches_checkpoint env _ _ _ _ _ _) fun _ => ?_
    refine keeps_bind (touches_checkpoint env _ _ _ _ _ _) fun _ => ?_
    exact keeps_bind (touches_interrupt env (by simp) id resuming state) fun _ => keeps_pure _
  · refine keeps_bind (touches_checkpoint env _ _ _ _ _ _) fun _ => keeps_ite ?_ (keeps_pure _)
    exact keeps_bind (touches_save_interrupted (by simp) _ _) fun _ => keeps_pure _

/-- A node other than the gate issues no token. -/
theorem touches_plain_node (env : Env) (id : WorkflowIdentity) (resuming : Bool)
    (state : EvaluationState) {node : Node} (hnode : node ≠ .quality_gate) :
    Touches [.reports] (graph_node env id resuming state node) := by
  unfold graph_node
  refine keeps_bind (touches_graph_fault env) fun _ => ?_
  rw [if_neg hnode]
  refine keeps_bind (touches_checkpoint env _ _ _ _ _ _) fun _ => ?_
  exact touches_plain_fn env (by simp) state hnode

theorem after_interrupt_issues (id : WorkflowIdentity) (resuming : Bool)
    (state : EvaluationState) :
    IssuesWhen (sends_to_review env state) true
      (after_interrupt.foldlM (graph_node env id resuming) state) := by
  simp only [after_interrupt, List.foldlM_cons, List.foldlM_nil]
  refine issues_then (K := [.reports]) (graph_gate_issues id resuming state) (fun merged => ?_)
    (by simp)
  refine keeps_bind (touches_plain_node env id resuming merged (by decide)) fun final => ?_
  exact keeps_bind (touches_plain_node env id resuming final (by decide)) fun _ => keeps_pure _

/-- The nodes from the entry point to the gate. -/
def before_gate : List Node := [.load_context, .retrieve_evidence, .evaluate_rules, .score_with_llm]

theorem edge_order_eq : edge_order = before_gate ++ after_interrupt := rfl

theorem touches_before_gate (env : Env) (id : WorkflowIdentity) (resuming : Bool)
    (state : EvaluationState) :
    Touches [.reports] (before_gate.foldlM (graph_node env id resuming) state) := by
  simp only [before_gate, List.foldlM_cons, List.foldlM_nil]
  refine keeps_bind (touches_plain_node env id resuming state (by decide)) fun s₁ => ?_
  refine keeps_bind (touches_plain_node env id resuming s₁ (by decide)) fun s₂ => ?_
  refine keeps_bind (touches_plain_node env id resuming s₂ (by decide)) fun s₃ => ?_
  exact keeps_bind (touches_plain_node env id resuming s₃ (by decide)) fun _ => keeps_pure _

theorem run_nodes_issues {decision : Act Bool} {id : WorkflowIdentity} {resuming : Bool}
    {nodes : List Node} {state : EvaluationState}
    (h : IssuesWhen decision true (nodes.foldlM (graph_node env id resuming) state)) :
    IssuesWhen decision true
      (catching (run_nodes env id resuming nodes state) (on_interrupt env)) := by
  unfold run_nodes
  refine issues_catching (K := []) ?_ (touches_on_interrupt env) (by simp)
  exact issues_then (K := []) h (fun _ => touches_graph_fault env) (by simp)

/-- The decision of the gate in a new run of a thread. -/
def first_decision (env : Env) (id : WorkflowIdentity) (state : EvaluationState) : Act Bool := do
  save_interrupted id.thread_id none
  let state ← before_gate.foldlM (graph_node env id false) state
  sends_to_review env state

theorem invoke_issues (id : WorkflowIdentity) (state : EvaluationState) :
    IssuesWhen (first_decision env id state) true (invoke env id state) := by
  unfold first_decision invoke
  refine issues_alike (K := [.interrupted]) (touches_save_interrupted (by simp) _ _) (by simp)
    fun _ => run_nodes_issues ?_
  rw [edge_order_eq, foldlM_split]
  exact issues_alike (touches_before_gate env id false state) (by simp)
    fun s => after_interrupt_issues id false s

/-! ## The runs of the jobs -/

/-- Which evaluation the gate sends to a review. -/
def reviewed (evaluation_id : String) (review : Bool) : Option String :=
  if review then some evaluation_id else none

/-- The decision of the gate in a run of the graph for an evaluation job. -/
def graph_decision (env : Env) (job : Job) (tenant_id : String) : Act (Option String) := do
  let thread_id ← thread_of env job "eval"
  let review ← first_decision env ⟨thread_id, job.job_id, tenant_id⟩
    (initial_state tenant_id job.resource_id job.trace_id thread_id job.job_id
      (evaluation_payload job))
  pure (reviewed job.resource_id review)

/-- The compat path does not ask the gate. -/
def when_langgraph (env : Env) (decision : Act (Option String)) : Act (Option String) := do
  let mode ← lift env.workflow_runtime
  match mode with
  | .compat => pure none
  | .langgraph => decision

theorem result_when_langgraph {decision : Act (Option String)}
    (h : env.workflow_runtime = .ok .langgraph) :
    (when_langgraph env decision).result w = decision.result w := by
  unfold when_langgraph
  rw [h]
  rfl

/-- The decision of the gate in the run of an evaluation job. -/
def evaluation_decision (env : Env) (job : Job) (tenant_id : String) : Act (Option String) := do
  let _ ← thread_of env job "eval"
  when_langgraph env (graph_decision env job tenant_id)

theorem touches_compat_end (env : Env) (job : Job) (status : JobStatus)
    (tenant_id thread_id : String) (evaluation_id : Option String)
    (nodes : List (String × String × PyDict)) :
    Touches [.jobs] (do
      append_checkpoints env thread_id job tenant_id nodes
      finish env job status tenant_id thread_id evaluation_id) :=
  keeps_bind (touches_checkpoints env _ _ _ _) fun _ => touches_finish env (by simp) _ _ _ _ _

theorem run_evaluation_graph_issues (job : Job) (tenant_id : String) :
    IssuesWhen (graph_decision env job tenant_id) (some job.resource_id)
      (run_evaluation_graph env job tenant_id) := by
  unfold run_evaluation_graph graph_decision
  refine issues_alike (K := []) (touches_thread_of env job "eval") (by simp) fun thread_id => ?_
  refine issues_catching (K := [.jobs]) ?_ ?_ (by simp)
  · refine issues_then (K := [.jobs]) ?_ (fun _ => touches_finish env (by simp) _ _ _ _ _) (by simp)
    exact issues_told (reviewed job.resource_id) (invoke_issues _ _)
  · intro e
    cases e with
    | graph_interrupt => exact touches_finish env (by simp) _ _ _ _ _
    | api e => exact keeps_raise _
    | raised class_name message => exact keeps_raise _

theorem run_evaluation_job_issues (job : Job) (tenant_id : String) :
    IssuesWhen (evaluation_decision env job tenant_id) (some job.resource_id)
      (run_evaluation_job env job tenant_id) := by
  unfold run_evaluation_job
  refine issues_then (K := []) ?_ (fun result => ?_) (by simp)
  · unfold run_evaluation_workflow evaluation_decision
    refine issues_alike (K := []) (touches_thread_of env job "eval") (by simp) fun thread_id => ?_
    intro w
    rw [meets_bind, meets_read, then_ok, meets_bind, meets_lift]
    rcases hruntime : env.workflow_runtime with e | mode
    · exact .inl rfl
    · rw [then_ok]
      cases mode with
      | compat =>
        rw [meets_ite]
        constructor
        · intro _
          exact issues_of_touches (touches_compat_end env job _ _ _ _ _) (by simp) w
        · intro _
          exact issues_of_touches (touches_compat_end env job _ _ _ _ _) (by simp) w
      | langgraph =>
        rw [result_when_langgraph hruntime]
        refine issues_catching (K := [.jobs]) (run_evaluation_graph_issues job tenant_id) ?_
          (by simp) w
        intro e
        exact keeps_ite (keeps_raise _) (touches_compat_end env job _ _ _ _ _)
  · exact keeps_bind (touches_evaluation_checkpoint env _ _ _) fun _ => keeps_pure _

/-! ## What a call leaves -/

/-- The call ruled on nothing, or on one known evaluation. Then its token is
replaced only if that is excused. -/
inductive Reviews (known excused : String → Prop) (w w' : World) : Prop where
  | quiet (hreports : w'.store.evaluation_reports = w.store.evaluation_reports)
      (htokens : w'.store.resume_tokens = w.store.resume_tokens)
      (hwaiting : w'.interrupted = w.interrupted)
  | ruled (evaluation_id : String) (hknown : known evaluation_id)
      (h : Ruled evaluation_id True w w')
      (htokens : w'.store.resume_tokens = w.store.resume_tokens ∨ excused evaluation_id)

section reviews

variable {known known' excused excused' : String → Prop} {K : List Part} {t : World}

theorem Reviews.of_frame (hf : Frame K w w') (hr : .reports ∉ K) (ht : .tokens ∉ K)
    (hi : .interrupted ∉ K) : Reviews known excused w w' :=
  .quiet (hf.same .reports hr) (hf.same .tokens ht) (hf.same .interrupted hi)

theorem Reviews.imp (h : Reviews known excused w w') (hknown : ∀ e, known e → known' e)
    (hexcused : ∀ e, known e → excused e → excused' e) : Reviews known' excused' w w' := by
  cases h with
  | quiet hreports htokens hwaiting => exact .quiet hreports htokens hwaiting
  | ruled e he h htokens => exact .ruled e (hknown e he) h (htokens.imp_right (hexcused e he))

theorem Reviews.later (h : Reviews known excused w t) (hf : Frame K t w') (hr : .reports ∉ K)
    (ht : .tokens ∉ K) (hi : .interrupted ∉ K) : Reviews known excused w w' := by
  have hsame : w'.store.resume_tokens = t.store.resume_tokens := hf.same .tokens ht
  cases h with
  | quiet hreports htokens hwaiting =>
    have hreports' : w'.store.evaluation_reports = t.store.evaluation_reports := hf.same .reports hr
    have hwaiting' : w'.interrupted = t.interrupted := hf.same .interrupted hi
    exact .quiet (hreports'.trans hreports) (hsame.trans htokens) (hwaiting'.trans hwaiting)
  | ruled e he h htokens =>
    exact .ruled e he (h.later hf hr ht hi) (htokens.imp_left hsame.trans)

theorem Reviews.from (hf : Frame K w t) (hr : .reports ∉ K) (ht : .tokens ∉ K)
    (hi : .interrupted ∉ K) (h : Reviews known excused t w') : Reviews known excused w w' := by
  have hsame : t.store.resume_tokens = w.store.resume_tokens := hf.same .tokens ht
  cases h with
  | quiet hreports htokens hwaiting =>
    have hreports' : t.store.evaluation_reports = w.store.evaluation_reports := hf.same .reports hr
    have hwaiting' : t.interrupted = w.interrupted := hf.same .interrupted hi
    exact .quiet (hreports.trans hreports') (htokens.trans hsame) (hwaiting.trans hwaiting')
  | ruled e he h htokens =>
    refine .ruled e he (.from hf hr (.of_frame hf hr ht hi) h) ?_
    exact htokens.imp_left fun heq => heq.trans hsame

end reviews

/-! ## The run of a resume job -/

/-- The decision of the gate when it is reached again at the interrupt. -/
def resumed_decision (env : Env) (id : WorkflowIdentity) : Act (Option String) := do
  let w ← read
  match w.interrupted id.thread_id with
  | none => pure none
  | some state => do
    let review ← sends_to_review env state
    pure (reviewed state.evaluation_id review)

/-- The decision of the gate in the run of a resume job. -/
def resume_decision (env : Env) (job : Job) (tenant_id : String) : Act (Option String) := do
  let _ ← thread_of env job "resume"
  when_langgraph env do
    let thread_id ← thread_of env job "resume"
    resumed_decision env ⟨thread_id, job.job_id, tenant_id⟩

/-- A thread waits for the review of the evaluation. -/
def Waiting (w : World) (evaluation_id : String) : Prop :=
  ∃ thread_id state, w.interrupted thread_id = some state ∧ state.evaluation_id = evaluation_id

/-- What a resume job does, by the decision that the gate would take. -/
abbrev Resumes (r : Except PyErr (Option String)) (w w' : World) : Prop :=
  Reviews (Waiting w) (fun e => r = .ok (some e)) w w'

theorem Resumes.from {K : List Part} {t : World} {r : Except PyErr (Option String)}
    (hf : Frame K w t) (hr : .reports ∉ K) (ht : .tokens ∉ K) (hi : .interrupted ∉ K)
    (h : Resumes r t w') : Resumes r w w' := by
  have hsame : t.interrupted = w.interrupted := hf.same .interrupted hi
  refine (Reviews.from hf hr ht hi h).imp ?_ (fun _ _ h => h)
  intro e
  unfold Waiting
  rw [hsame]
  exact id

theorem invoke_resume.reviews (id : WorkflowIdentity) (w : World) :
    Meets AnyStep (invoke_resume env id) w
      (fun _ w' => Resumes ((resumed_decision env id).result w) w w') := by
  have hspec : Meets AnyStep (invoke_resume env id) w _ := invoke_resume.spec id w
  have hissues : ∀ state, w.interrupted id.thread_id = some state →
      Meets AnyStep (invoke_resume env id) w (fun _ w' =>
        w'.store.resume_tokens = w.store.resume_tokens ∨
          (resumed_decision env id).result w = .ok (some state.evaluation_id)) := by
    intro state hwaiting
    unfold invoke_resume resumed_decision
    rw [meets_bind, meets_read, then_ok, result_read, hwaiting]
    exact issues_told (reviewed state.evaluation_id)
      (run_nodes_issues (after_interrupt_issues id true state)) w
  rcases hwaiting : w.interrupted id.thread_id with _ | state
  · rw [hwaiting] at hspec
    exact hspec.post fun _ _ hf => .of_frame hf (by simp) (by simp) (by simp)
  · rw [hwaiting] at hspec
    refine (hspec.and (hissues state hwaiting)).post ?_
    rintro _ w' ⟨hruled, htokens⟩
    exact .ruled state.evaluation_id ⟨_, state, hwaiting, rfl⟩ hruled htokens

/-- The program resumes a thread, and the decision is that of its gate. -/
def ResumesBy (decision : Act (Option String)) (m : Act α) : Prop :=
  ∀ w, Meets AnyStep m w (fun _ w' => Resumes (decision.result w) w w')

section resumes

variable {decision : Act (Option String)} {m : Act α} {K : List Part}

theorem resumes_of_touches (h : Touches K m) (hr : .reports ∉ K) (ht : .tokens ∉ K)
    (hi : .interrupted ∉ K) : ResumesBy decision m := by
  intro w
  refine (ends_touches h w).post ?_
  intro _ _ hf
  exact .of_frame hf hr ht hi

theorem resumes_alike {p : Act γ} {d : γ → Act (Option String)} {f : γ → Act α}
    (hp : Touches K p) (hr : .reports ∉ K) (ht : .tokens ∉ K) (hi : .interrupted ∉ K)
    (h : ∀ c, ResumesBy (d c) (f c)) : ResumesBy (p >>= d) (p >>= f) := by
  intro w
  have hf := hp.frame w
  refine ((keeps_true p).ends w).bind ?_ ?_
  · rintro c t ⟨hc, rfl⟩
    refine (h c _).post ?_
    intro r t' hresumes
    rw [result_bind hc.symm]
    exact hresumes.from hf hr ht hi
  · rintro e t ⟨-, rfl⟩
    exact .of_frame hf hr ht hi

theorem resumes_then {f : α → Act β} (h : ResumesBy decision m) (hf : ∀ a, Touches K (f a))
    (hr : .reports ∉ K) (ht : .tokens ∉ K) (hi : .interrupted ∉ K) :
    ResumesBy decision (m >>= f) := by
  intro w
  refine (h w).bind ?_ (fun _ _ h => h)
  intro a t ha
  refine (ends_touches (hf a) t).post ?_
  intro _ _ hframe
  exact ha.later hframe hr ht hi

theorem resumes_catching {handler : PyErr → Act α} (h : ResumesBy decision m)
    (hh : ∀ e, Touches K (handler e)) (hr : .reports ∉ K) (ht : .tokens ∉ K)
    (hi : .interrupted ∉ K) : ResumesBy decision (catching m handler) := by
  intro w
  refine (h w).catching (fun _ _ h => h) ?_
  intro e t he
  refine (ends_touches (hh e) t).post ?_
  intro _ _ hframe
  exact he.later hframe hr ht hi

end resumes

theorem run_resume_graph_resumes (job : Job) (tenant_id : String) :
    ResumesBy (do
      let thread_id ← thread_of env job "resume"
      resumed_decision env ⟨thread_id, job.job_id, tenant_id⟩)
      (run_resume_graph env job tenant_id) := by
  unfold run_resume_graph
  refine resumes_alike (K := []) (touches_thread_of env job "resume") (by simp) (by simp) (by simp)
    fun thread_id => ?_
  refine resumes_then (K := [.jobs]) ?_ (fun _ => touches_finish env (by simp) _ _ _ _ _)
    (by simp) (by simp) (by simp)
  refine resumes_catching (K := []) (invoke_resume.reviews _) ?_ (by simp) (by simp) (by simp)
  intro e
  cases e with
  | graph_interrupt => exact keeps_raise _
  | api e => exact keeps_raise _
  | raised class_name message => exact keeps_raise _

theorem run_resume_job_resumes (job : Job) (tenant_id : String) :
    ResumesBy (resume_decision env job tenant_id) (run_resume_job env job tenant_id) := by
  have hcompat : ∀ thread_id, Touches [.jobs] (run_resume_compat env job tenant_id thread_id) :=
    fun thread_id => touches_compat_end env job _ _ _ _ _
  unfold run_resume_job
  refine resumes_then (K := []) ?_ (fun _ => keeps_bind (touches_checkpoint env _ _ _ _ _ _)
    fun _ => keeps_pure _) (by simp) (by simp) (by simp)
  unfold run_resume_workflow resume_decision
  refine resumes_alike (K := []) (touches_thread_of env job "resume") (by simp) (by simp) (by simp)
    fun thread_id => ?_
  intro w
  rw [meets_bind, meets_lift]
  rcases hruntime : env.workflow_runtime with e | mode
  · exact .quiet rfl rfl rfl
  · rw [then_ok]
    cases mode with
    | compat =>
      exact resumes_of_touches (hcompat thread_id) (by simp) (by simp) (by simp) w
    | langgraph =>
      rw [result_when_langgraph hruntime]
      refine resumes_catching (K := [.jobs]) (run_resume_graph_resumes job tenant_id) ?_ (by simp)
        (by simp) (by simp) w
      intro e
      exact keeps_ite (keeps_raise _) (hcompat thread_id)

/-! ## A run -/

/-- The evaluation that a running job sends to a review, if it does. -/
def decision_by_type (env : Env) (job : Job) (tenant_id : String) : Act (Option String) :=
  match job.job_type with
  | .evaluation => evaluation_decision env job tenant_id
  | .resume => resume_decision env job tenant_id
  | _ => pure none

/-- The evaluation that a run sends to a review, if it does. -/
def run_decision (env : Env) (job_id tenant_id : String) : Act (Option String) := do
  let job ← begin_run env job_id tenant_id
  decision_by_type env job tenant_id

/-- The evaluations that a run of the job may rule on. -/
def Concerns (job : Job) (w : World) (evaluation_id : String) : Prop :=
  (job.job_type = .evaluation ∧ job.resource_id = evaluation_id) ∨ Waiting w evaluation_id

theorem run_by_type.reviews {job : Job} {tenant_id : String}
    (hv : Visible w job (some tenant_id)) (hrunning : job.status = .running) :
    Meets AnyStep (run_by_type env job tenant_id) w (fun _ w' => Reviews (Concerns job w)
      (fun e => (decision_by_type env job tenant_id).result w = .ok (some e)) w w') := by
  unfold run_by_type
  split
  · rename_i htype
    have hdecision :
        decision_by_type env job tenant_id = evaluation_decision env job tenant_id := by
      unfold decision_by_type
      rw [htype]
    have hrules : Meets AnyStep (run_evaluation_job env job tenant_id) w _ :=
      run_evaluation_job.rules job tenant_id w
    rw [hdecision]
    refine (hrules.and (run_evaluation_job_issues job tenant_id w)).post ?_
    rintro r w' ⟨hruled, htokens⟩
    exact .ruled job.resource_id (.inl ⟨htype, rfl⟩) (hruled.mono False.elim) htokens
  · rename_i htype
    have hdecision : decision_by_type env job tenant_id = resume_decision env job tenant_id := by
      unfold decision_by_type
      rw [htype]
    rw [hdecision]
    refine (run_resume_job_resumes job tenant_id w).post ?_
    intro r w' h
    exact h.imp (fun _ hwaiting => .inr hwaiting) (fun _ _ h => h)
  · have hsucceed : Meets (Step env anyJob) (succeed_job env job tenant_id) w _ :=
      succeed_job.spec any_free hv hrunning
    refine (meets_any hsucceed).post ?_
    rintro r w' ⟨-, job', hb, -⟩
    exact .of_frame hb.frame (by simp) (by simp) (by simp)

/-- A run rules on an evaluation of a stored job, or of a waiting thread. -/
def Concerned (w : World) (evaluation_id : String) : Prop :=
  ∃ job, Stored w job ∧ Concerns job w evaluation_id

theorem started_run.reviews {job : Job} {tenant_id : String} {flags : RunFlags}
    (hv : Visible w job (some tenant_id)) (hstart : Startable job.status)
    (hflags : ¬ ToldToFail flags) :
    Meets AnyStep (run_job_once env job.job_id tenant_id flags) w (fun _ w' =>
      Reviews (Concerned w)
        (fun e => (run_decision env job.job_id tenant_id).result w = .ok (some e)) w w') := by
  have hbegin : Meets (Step env anyJob) (begin_run env job.job_id tenant_id) w _ :=
    begin_run.spec any_free w job.job_id tenant_id
  unfold run_job_once
  refine any_saving (((meets_any hbegin).and ((keeps_true _).ends w)).bind ?_ ?_) ?_
  · rintro job' t ⟨⟨hf, found, hid, hfound, -, hb, hrunning, -⟩, hok, rfl⟩
    cases hv.stored.unique hfound.stored hid
    have hrun : run_started env job' tenant_id flags = run_by_type env job' tenant_id := by
      rw [ToldToFail, not_or] at hflags
      unfold run_started
      rw [if_neg hflags.1, if_neg hflags.2]
    rw [hrun]
    refine (run_by_type.reviews (hb.visible hv) hrunning).post ?_
    intro r w' hreviews
    refine (Reviews.from hf (by simp) (by simp) (by simp) hreviews).imp ?_ ?_
    · rintro e (⟨htype, hresource⟩ | ⟨thread_id, state, hwaiting, hid⟩)
      · exact ⟨job, hv.stored, .inl ⟨hb.same.job_type.symm.trans htype,
          hb.same.resource_id.symm.trans hresource⟩⟩
      · have hsame : ((begin_run env job.job_id tenant_id).final w).interrupted = w.interrupted :=
          hf.same .interrupted (by simp)
        rw [hsame] at hwaiting
        exact ⟨job, hv.stored, .inr ⟨thread_id, state, hwaiting, hid⟩⟩
    · intro e _ hdecision
      unfold run_decision
      rw [result_bind hok.symm]
      exact hdecision
  · rintro e t ⟨⟨-, hno⟩, -⟩
    exact absurd hstart ((hno job rfl hv.stored).2 hv)
  · intro result t t' hreviews hf
    exact hreviews.later hf (by simp) (by simp) (by simp)

/-- What a whole run does to the reports and the tokens. -/
theorem run_job_once.reviews {job_id tenant_id : String} {flags : RunFlags} (hn : Named env w) :
    Meets AnyStep (run_job_once env job_id tenant_id flags) w (fun _ w' =>
      Reviews (Concerned w) (fun e => ¬ ToldToFail flags ∧
        (run_decision env job_id tenant_id).result w = .ok (some e)) w w') := by
  by_cases hstart : ∃ job, job.job_id = job_id ∧ Visible w job (some tenant_id) ∧
      Startable job.status
  · obtain ⟨job, rfl, hv, hstart⟩ := hstart
    by_cases hflags : ToldToFail flags
    · refine (told_to_fail_run.spec hv hstart hflags).post ?_
      rintro r w' ⟨job', hb, -⟩
      exact .of_frame hb.frame (by simp [failedParts]) (by simp [failedParts])
        (by simp [failedParts])
    · refine (started_run.reviews hv hstart hflags).post ?_
      intro r w' hreviews
      exact hreviews.imp (fun _ h => h) (fun _ _ h => ⟨hflags, h⟩)
  · have hspec : Meets (Step env anyJob) (run_job_once env job_id tenant_id flags) w _ :=
      run_job_once.spec any_free hn (permits_any (.run_job_once job_id tenant_id flags))
    refine (meets_any hspec).post ?_
    rintro r w' (⟨job, hid, hv, hs, -⟩ | ⟨-, -, hf, -⟩)
    · exact absurd ⟨job, hid, hv, hs⟩ hstart
    · exact .of_frame hf (by simp) (by simp) (by simp)

/-! ## The creators -/

/-- An accepted resume has cleared the report, if its tenant has one. -/
structure ClearedBy (evaluation_id : String) (report : Option EvaluationReport) (w w' : World)
    (r : Except PyErr α) : Prop where
  ruled : Ruled evaluation_id False w w'
  absent : report = none → w'.store.evaluation_reports = w.store.evaluation_reports
  cleared : ∀ a, r = .ok a → report ≠ none → ¬ Flagged w' evaluation_id

theorem ClearedBy.later {evaluation_id : String} {report : Option EvaluationReport}
    {K : List Part} {t : World} {r : Except PyErr α} {r' : Except PyErr β}
    (h : ClearedBy evaluation_id report w t r) (hr' : ∀ b, r' = .ok b → ∃ a, r = .ok a)
    (hf : Frame K t w') (hr : .reports ∉ K) (ht : .tokens ∉ K) (hi : .interrupted ∉ K) :
    ClearedBy evaluation_id report w w' r' := by
  have hsame : w'.store.evaluation_reports = t.store.evaluation_reports := hf.same .reports hr
  refine ⟨h.ruled.later hf hr ht hi, fun hnone => hsame.trans (h.absent hnone), ?_⟩
  intro b hb hreport
  obtain ⟨a, ha⟩ := hr' b hb
  unfold Flagged
  rw [hsame]
  exact h.cleared a ha hreport

theorem ClearedBy.from {evaluation_id : String} {report : Option EvaluationReport}
    {K : List Part} {t : World} {r : Except PyErr α} (hf : Frame K w t) (hr : .reports ∉ K)
    (ht : .tokens ∉ K) (hi : .interrupted ∉ K) (h : ClearedBy evaluation_id report t w' r) :
    ClearedBy evaluation_id report w w' r := by
  have hsame : t.store.evaluation_reports = w.store.evaluation_reports := hf.same .reports hr
  exact ⟨.from hf hr (.of_frame hf hr ht hi) h.ruled, fun hnone => (h.absent hnone).trans hsame,
    h.cleared⟩

theorem clear_review.spec {evaluation_id : String} {report : Option EvaluationReport}
    (env : Env) (hid : ∀ found, report = some found → found.evaluation_id = evaluation_id)
    (w : World) :
    Meets AnyStep (clear_review env report) w (fun r w' => Frame [.reports] w w' ∧
      ClearedBy evaluation_id report w w' r) := by
  unfold clear_review
  cases report with
  | none =>
    dsimp only
    rw [meets_pure]
    have hf : Frame [] w w := Frame.refl w
    refine ⟨Frame.refl w, .of_only hf (by simp) (.of_frame hf (by simp) (by simp) (by simp)),
      fun _ => rfl, ?_⟩
    intro _ _ hno
    exact absurd rfl hno
  | some found =>
    have hfound := hid found rfl
    subst hfound
    refine (persist_evaluation_report.spec env _ w).post ?_
    rintro r w' ⟨hf, hstores⟩
    have hflag : ({ found with needs_human_review := false, interrupt := none } :
        EvaluationReport).needs_human_review = true → False ∧
        TokenOf w { found with needs_human_review := false, interrupt := none } := by
      intro hneeds
      cases hneeds
    have hruled := ruled_of_stores hf hflag hstores
    refine ⟨hf, hruled, (by simp), ?_⟩
    rintro _ rfl -
    obtain ⟨uri, hreports⟩ := hstores
    have hstored := Table.get?_put_self w.store.evaluation_reports
      { found with needs_human_review := false, interrupt := none, report_uri := uri }
    unfold Flagged
    rw [hreports, hstored]
    simp [is_flagged]

/-- At most one job was stored, a new one of the kind. -/
def NewJob (kind : Job → Prop) (w w' : World) : Prop :=
  w'.store.jobs = w.store.jobs ∨ ∃ job, w'.store.jobs = w.store.jobs.put job ∧ kind job

theorem NewJob.later {kind : Job → Prop} {K : List Part} {t : World} (h : NewJob kind w t)
    (hf : Frame K t w') (hj : .jobs ∉ K) : NewJob kind w w' := by
  have hsame : w'.store.jobs = t.store.jobs := hf.same .jobs hj
  unfold NewJob
  rw [hsame]
  exact h

theorem frame_of_put {job : Job}
    (h : w' = { w with store := { w.store with jobs := w.store.jobs.put job } }) :
    Frame [.jobs] w w' := by
  subst h
  refine ⟨fun p hp => ?_, Nat.le_refl _⟩
  cases p <;> first | rfl | exact absurd List.mem_cons_self hp

/-- How the creation of a resume job ends, whether it returned or raised. -/
structure ResumeCreated (evaluation_id tenant_id : String) (w w' : World)
    (r : Except PyErr String) : Prop where
  frame : Frame resumeParts w w'
  jobs : NewJob (fun job => job.job_type = .resume) w w'
  cleared : ClearedBy evaluation_id (get_report w.store evaluation_id tenant_id) w w' r

theorem create_resume_job.rules (env : Env) (evaluation_id : String) (payload : ResumePayload)
    (w : World) :
    Meets AnyStep (create_resume_job env evaluation_id payload) w
      (fun r w' => ResumeCreated evaluation_id payload.tenant_id w w' r) := by
  have hid : ∀ found, get_report w.store evaluation_id payload.tenant_id = some found →
      found.evaluation_id = evaluation_id := by
    intro found hfound
    obtain ⟨hget, -⟩ := Option.filter_eq_some_iff.1 hfound
    exact Table.key_of_get? _ hget
  apply create_resume_job.walk
  intro job t hjob
  have hnew : NewJob (fun job => job.job_type = .resume) w t :=
    .inr ⟨job, hjob.jobs, hjob.job_type⟩
  refine (clear_review.spec env hid t).post ?_
  rintro r t' ⟨hf, hcleared⟩
  have hcleared := ClearedBy.from hjob.frame (by simp) (by simp) (by simp) hcleared
  have hframe : Frame resumeParts w t' :=
    (hjob.frame.mono (by simp [resumeParts])).trans (hf.mono (by simp [resumeParts]))
  cases r with
  | ok u =>
    intro t'' hf'
    refine ⟨hframe.trans (hf'.mono (by simp [resumeParts])), ?_, ?_⟩
    · exact (hnew.later hf (by simp)).later hf' (by simp)
    · exact hcleared.later (fun _ _ => ⟨u, rfl⟩) hf' (by simp) (by simp) (by simp)
  | error e =>
    refine ⟨hframe, hnew.later hf (by simp), hcleared.ruled, hcleared.absent, ?_⟩
    rintro _ ⟨⟩

/-- How the creation of an evaluation job ends, whether it returned or
raised. -/
structure EvaluationCreated (evaluation_id : String) (w w' : World) : Prop where
  draws : w.draws < w'.draws
  jobs : NewJob (fun job => job.resource_id = evaluation_id) w w'
  ruled : Ruled evaluation_id True w w'

theorem create_evaluation_job.rules (env : Env) (payload : EvaluationPayload) (w : World) :
    Meets AnyStep (create_evaluation_job env payload) w
      (fun _ w' => EvaluationCreated ("ev_" ++ env.uuid4.hex12 w.draws) w w') := by
  have hname : Meets (Step env anyJob) (uuid4_hex12 env) w _ := uuid4_hex12.spec w
  unfold create_evaluation_job
  refine any_saving ?_ ?_
  · refine (meets_any hname).bind ?_ (by rintro e t ⟨he, -⟩; cases he)
    rintro hex t₁ ⟨hhex, ht₁⟩
    cases hhex
    have hdraws : w.draws < t₁.draws := by
      rw [ht₁]
      exact Nat.lt_succ_self _
    have hf₁ : Frame [] w t₁ := by
      refine ⟨fun p _ => ?_, hdraws.le⟩
      rw [ht₁]
      cases p <;> rfl
    refine past_return (K := []) (touches_uuid4 env) (returns_uuid4 env) fun job_hex t₂ hf₂ => ?_
    refine past_return (K := []) (touches_new_thread_id env "eval")
      (returns_new_thread_id env "eval") fun thread_id t₃ hf₃ => ?_
    have hf := (hf₁.trans hf₂).trans hf₃
    have hdraws₃ : w.draws < t₃.draws := lt_of_lt_of_le hdraws (hf₂.trans hf₃).draws
    dsimp only
    generalize hstate : initial_state payload.tenant_id ("ev_" ++ env.uuid4.hex12 w.draws)
      payload.trace_id thread_id ("job_" ++ job_hex) payload = state
    have hid : state.evaluation_id = "ev_" ++ env.uuid4.hex12 w.draws := by
      rw [← hstate]
      rfl
    have hnodes : Meets AnyStep (run_evaluation_nodes_sequentially env state) t₃ _ :=
      (run_evaluation_nodes.spec state t₃).and
        (ends_touches (K := [.tokens, .reports]) (touches_nodes env (by simp) (by simp) state) t₃)
    have hruled : ∀ {t : World}, Ruled state.evaluation_id True t₃ t →
        Ruled ("ev_" ++ env.uuid4.hex12 w.draws) True w t := by
      intro t h
      rw [hid] at h
      exact .from hf (by simp) (.of_frame hf (by simp) (by simp) (by simp)) h
    refine hnodes.bind ?_ ?_
    · rintro last t₄ ⟨hruled₄, hf₄⟩
      refine (persist_job.puts _ t₄).bind ?_ (by rintro e t ⟨he, -⟩; cases he)
      rintro job t₅ ⟨hjob, ht₅⟩
      have hresource : job.resource_id = "ev_" ++ env.uuid4.hex12 w.draws := by
        cases hjob
        rfl
      rw [← Except.ok.inj hjob] at ht₅
      have hf₅ := frame_of_put ht₅
      have hjobs : t₄.store.jobs = w.store.jobs :=
        ((hf.mono (by simp)).trans hf₄).same .jobs (by simp)
      have hnew : NewJob (fun job => job.resource_id = "ev_" ++ env.uuid4.hex12 w.draws) w t₅ := by
        refine .inr ⟨job, ?_, hresource⟩
        rw [ht₅, ← hjobs]
      refine past_return (K := [.outbox]) (touches_outbox env (by simp) _ _ _ _ _)
        (returns_announce env _ _ _ _ _) fun _ t₆ hf₆ => ?_
      rw [meets_pure]
      refine ⟨?_, hnew.later hf₆ (by simp), ?_⟩
      · have h₄ := hf₄.draws
        have h₅ := hf₅.draws
        have h₆ := hf₆.draws
        omega
      · exact ((hruled hruled₄).later hf₅ (by simp) (by simp) (by simp)).later hf₆ (by simp)
          (by simp) (by simp)
    · rintro e t₄ ⟨hruled₄, hf₄⟩
      refine ⟨lt_of_lt_of_le hdraws₃ hf₄.draws, .inl ?_, hruled hruled₄⟩
      exact ((hf.mono (by simp)).trans hf₄).same .jobs (by simp)
  · rintro ids t t' hcreated hf
    exact ⟨lt_of_lt_of_le hcreated.draws hf.draws, hcreated.jobs.later hf (by simp),
      hcreated.ruled.later hf (by simp) (by simp) (by simp)⟩

/-! ## The resume -/

/-- How the consumption of a token ends: nothing changed, or the token of
the evaluation is used. -/
structure TokenUsed (env : Env) (evaluation_id resume_token tenant_id : String) (w w' : World) :
    Prop where
  accepts : ∃ record, Accepts env w evaluation_id resume_token tenant_id record
  draws : w'.draws = w.draws + 2
  frame : Frame [.tokens] w w'
  holds : w'.store.legal_hold_objects = w.store.legal_hold_objects
  only : OnlyOf evaluation_id w w'

theorem consume_resume_token.rules (env : Env) (evaluation_id resume_token tenant_id : String)
    (w : World) :
    Meets AnyStep (consume_resume_token env evaluation_id resume_token tenant_id) w (fun r w' =>
      (r ≠ .ok true ∧ Frame [] w w' ∧
        ¬ ∃ record, Accepts env w evaluation_id resume_token tenant_id record) ∨
      (r = .ok true ∧ TokenUsed env evaluation_id resume_token tenant_id w w')) := by
  have hframe := ends_touches (K := [.tokens]) (touches_consume_token env (by simp) evaluation_id
    resume_token tenant_id) w
  refine ((consume.spec env evaluation_id resume_token tenant_id w).and hframe).post ?_
  rintro r t ⟨⟨hr, hstore, hno⟩ | ⟨hr, hdraws, record, haccepts, hstore⟩, hf⟩
  · refine .inl ⟨hr, ⟨fun p _ => ?_, hf.draws⟩, hno⟩
    by_cases hp : p = .tokens
    · subst hp
      show t.store.resume_tokens = w.store.resume_tokens
      rw [hstore]
    · exact hf.same p (by simpa using hp)
  · have hreports : t.store.evaluation_reports = w.store.evaluation_reports :=
      hf.same .reports (by simp)
    have hwaiting : t.interrupted = w.interrupted := hf.same .interrupted (by simp)
    refine .inr ⟨hr, ⟨record, haccepts⟩, hdraws, hf, ?_, fun id _ => by rw [hreports], ?_,
      fun thread_id state hs => .inl (hwaiting ▸ hs)⟩
    · rw [hstore]
      rfl
    · intro id hid
      rw [hstore]
      exact Dict.get?_set_of_ne _ _ hid

/-- How a resume ends: nothing changed, or the token is used and the report
is cleared, or the archive raised. -/
theorem execute_resume.rules (env : Env) (evaluation_id resume_token : String)
    (payload : ResumePayload) (w : World) :
    Meets AnyStep (execute_resume env evaluation_id resume_token payload) w (fun _ w' =>
      Frame [] w w' ∨ ∃ t, TokenUsed env evaluation_id resume_token payload.tenant_id w t ∧
        ∃ r, ResumeCreated evaluation_id payload.tenant_id t w' r ∧
          ((∃ job_id, r = .ok job_id) ↔ ReportTakes env t evaluation_id payload.tenant_id)) := by
  unfold execute_resume
  refine (consume_resume_token.rules env evaluation_id resume_token payload.tenant_id w).bind ?_ ?_
  · rintro consumed t h
    rw [meets_ite]
    constructor
    · rintro rfl
      rcases h with ⟨hno, -⟩ | ⟨-, hused⟩
      · exact absurd rfl hno
      · refine ((create_resume_job.rules env evaluation_id payload t).and
          (create_resume_job.returns evaluation_id payload t)).post ?_
        rintro r t' ⟨hcreated, hreturns⟩
        exact .inr ⟨t, hused, r, hcreated, hreturns⟩
    · intro hfalse
      unfold raise_api
      rw [meets_raise]
      rcases h with ⟨-, hf, -⟩ | ⟨htrue, -⟩
      · exact .inl hf
      · exact absurd (Except.ok.inj htrue) hfalse
  · rintro e t (⟨-, hf, -⟩ | ⟨htrue, -⟩)
    · exact .inl hf
    · cases htrue

end bid_evaluation.agreement_steps
