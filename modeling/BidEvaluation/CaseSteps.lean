-- The case of an evaluation: its name and the tenant that it belongs to. The
-- nodes, the graph and the run of its job write the report of the case and
-- states of the case that wait, and no other.
import BidEvaluation.ReviewSteps

open dict_lib stepwise bid_evaluation.values bid_evaluation.core bid_evaluation.store_ops
  bid_evaluation.store_workflow bid_evaluation.store_admin bid_evaluation.store_eval
  bid_evaluation.evaluation_nodes bid_evaluation.langgraph_runtime bid_evaluation.job_run
  bid_evaluation.frames bid_evaluation.endings bid_evaluation.review_steps

namespace bid_evaluation.case_steps

variable {env : Env} {w w' : World} {evaluation_id tenant_id : String}

/-! ## A case -/

/-- The state is of the case, and so is the report that it carries. -/
structure OfCase (evaluation_id tenant_id : String) (state : EvaluationState) : Prop where
  named : state.evaluation_id = evaluation_id
  owned : state.tenant_id = tenant_id
  report : ∀ report, state.report = some report →
    report.evaluation_id = evaluation_id ∧ report.tenant_id = tenant_id

/-- One write on a case: no other report and no other waiting state changes. -/
structure CaseStep (evaluation_id tenant_id : String) (w w' : World) : Prop where
  reports : w'.store.evaluation_reports = w.store.evaluation_reports ∨
    ∃ report, report.evaluation_id = evaluation_id ∧ report.tenant_id = tenant_id ∧
      w'.store.evaluation_reports = w.store.evaluation_reports.put report
  waiting : ∀ thread_id state, w'.interrupted thread_id = some state →
    w.interrupted thread_id = some state ∨ OfCase evaluation_id tenant_id state

/-- A program that writes only on the case. -/
abbrev OnCase (evaluation_id tenant_id : String) (m : Act α) : Prop :=
  Keeps (CaseStep evaluation_id tenant_id) m

theorem case_of_frame {K : List Part} (hf : Frame K w w') (hr : .reports ∉ K)
    (hi : .interrupted ∉ K) : CaseStep evaluation_id tenant_id w w' := by
  have hreports : w'.store.evaluation_reports = w.store.evaluation_reports := hf.same .reports hr
  have hwaiting : w'.interrupted = w.interrupted := hf.same .interrupted hi
  exact ⟨.inl hreports, fun thread_id state hs => .inl (hwaiting ▸ hs)⟩

/-- A program that changes neither reports nor waiting threads is on any case. -/
theorem on_case_of_touches {K : List Part} {m : Act α} (h : Touches K m) (hr : .reports ∉ K)
    (hi : .interrupted ∉ K) : OnCase evaluation_id tenant_id m :=
  h.mono fun _ _ ho => case_of_frame ho.frame hr hi

theorem on_case_quiet {m : Act α} (h : Touches [] m) : OnCase evaluation_id tenant_id m :=
  on_case_of_touches h (by simp) (by simp)

/-- The program writes only on the case, and returns a state of it. -/
def InCase (evaluation_id tenant_id : String) (m : Act EvaluationState) : Prop :=
  ∀ w, Meets (CaseStep evaluation_id tenant_id) m w
    (fun r _ => ∀ s, r = .ok s → OfCase evaluation_id tenant_id s)

theorem InCase.on_case {m : Act EvaluationState} (h : InCase evaluation_id tenant_id m) :
    OnCase evaluation_id tenant_id m := fun w => (h w).1

theorem in_case_pure {s : EvaluationState} (h : OfCase evaluation_id tenant_id s) :
    InCase evaluation_id tenant_id (pure s) := by
  intro w
  rw [meets_pure]
  rintro _ ⟨⟩
  exact h

theorem in_case_bind {m : Act α} {f : α → Act EvaluationState}
    (h : OnCase evaluation_id tenant_id m) (hf : ∀ a, InCase evaluation_id tenant_id (f a)) :
    InCase evaluation_id tenant_id (m >>= f) :=
  fun w => (h.meets w).bind (fun a t _ => hf a t) (by rintro e t - s ⟨⟩)

theorem in_case_then {m : Act EvaluationState} {f : EvaluationState → Act EvaluationState}
    (h : InCase evaluation_id tenant_id m)
    (hf : ∀ s, OfCase evaluation_id tenant_id s → InCase evaluation_id tenant_id (f s)) :
    InCase evaluation_id tenant_id (m >>= f) :=
  fun w => (h w).bind (fun s t hs => hf s (hs s rfl) t) (by rintro e t - s ⟨⟩)

theorem in_case_ite {c : Prop} [Decidable c] {a b : Act EvaluationState}
    (ha : InCase evaluation_id tenant_id a) (hb : InCase evaluation_id tenant_id b) :
    InCase evaluation_id tenant_id (if c then a else b) := by
  split
  · exact ha
  · exact hb

theorem in_case_foldlM {f : EvaluationState → Node → Act EvaluationState}
    (hf : ∀ s node, OfCase evaluation_id tenant_id s → InCase evaluation_id tenant_id (f s node))
    (nodes : List Node) {s : EvaluationState} (h : OfCase evaluation_id tenant_id s) :
    InCase evaluation_id tenant_id (nodes.foldlM f s) := by
  induction nodes generalizing s with
  | nil => exact in_case_pure h
  | cons node rest ih =>
    rw [List.foldlM_cons]
    exact in_case_then (hf s node h) fun s' h' => ih h'

/-! ## The nodes -/

/-- The archived report is stored, and it is of the case of the report. -/
theorem on_case_report (env : Env) {report : EvaluationReport}
    (hid : report.evaluation_id = evaluation_id) (htenant : report.tenant_id = tenant_id) :
    OnCase evaluation_id tenant_id (persist_evaluation_report env report) := by
  have harchive : Touches [] (archive_report_to_object_storage env report) :=
    keeps_ite (keeps_pure _) (keeps_bind (touches_put_held_object env _ _ _) fun _ => keeps_pure _)
  intro w
  have hwrites : Meets (CaseStep evaluation_id tenant_id)
      (archive_report_to_object_storage env report) w (fun r _ => ∀ archived, r = .ok archived →
        ∃ uri, archived = { report with report_uri := uri }) :=
    ⟨on_case_quiet harchive w, (archive.spec report w).2.2⟩
  refine (hwrites.bind ?_ (fun _ _ _ => trivial) : Meets _ _ w (fun _ _ => True)).1
  intro archived t harchived
  obtain ⟨uri, rfl⟩ := harchived archived rfl
  unfold update
  rw [meets_write]
  exact ⟨⟨.inr ⟨{ report with report_uri := uri }, hid, htenant, rfl⟩, fun _ _ hs => .inl hs⟩,
    trivial⟩

theorem node_fn_case (env : Env) {state : EvaluationState}
    (h : OfCase evaluation_id tenant_id state) (node : Node) :
    InCase evaluation_id tenant_id (node_fn env state node) := by
  cases node with
  | load_context =>
    exact in_case_bind keeps_read fun _ => in_case_bind (keeps_lift _) fun _ =>
      in_case_pure ⟨h.1, h.2, h.3⟩
  | retrieve_evidence =>
    exact in_case_bind (on_case_quiet (touches_gather_evidence env _)) fun _ =>
      in_case_bind (on_case_quiet (touches_register_sources env _ _ _)) fun _ =>
        in_case_pure ⟨h.1, h.2, h.3⟩
  | evaluate_rules => exact in_case_pure ⟨h.1, h.2, h.3⟩
  | score_with_llm =>
    have hloop : Touches [] ((state.criteria_defs.filterMap asDict).foldlM
        (score_criteria env state) ⟨⟨0, false, false⟩, [], [], false⟩) :=
      keeps_foldlM (fun _ _ => touches_score_criteria env state _ _) _ _
    exact in_case_bind (on_case_quiet hloop) fun _ => in_case_bind keeps_read fun _ =>
      in_case_pure ⟨h.1, h.2, h.3⟩
  | quality_gate =>
    refine in_case_bind keeps_read fun _ => in_case_bind ?_ fun _ => in_case_pure ⟨h.1, h.2, h.3⟩
    exact on_case_of_touches (K := [.tokens]) (touches_issue_token env (by simp) _ _) (by simp)
      (by simp)
  | finalize_report =>
    refine in_case_bind keeps_read fun _ => in_case_pure ⟨h.1, h.2, ?_⟩
    rintro _ ⟨⟩
    exact ⟨h.1, h.2⟩
  | persist_result =>
    unfold node_fn node_persist_result
    dsimp only
    split
    · exact fun w => by simp
    · rename_i report hreport
      obtain ⟨hid, htenant⟩ := h.report report hreport
      exact in_case_bind (on_case_report env hid htenant) fun _ => in_case_pure h

/-- The linear runtime is on the case from its first node to its last. -/
theorem nodes_case (env : Env) {state : EvaluationState}
    (h : OfCase evaluation_id tenant_id state) :
    InCase evaluation_id tenant_id (run_evaluation_nodes_sequentially env state) :=
  in_case_then (node_fn_case env h .load_context) fun _ h =>
    in_case_then (node_fn_case env h .retrieve_evidence) fun _ h =>
      in_case_then (node_fn_case env h .evaluate_rules) fun _ h =>
        in_case_then (node_fn_case env h .score_with_llm) fun _ h =>
          in_case_then (node_fn_case env h .quality_gate) fun _ h =>
            in_case_then (node_fn_case env h .finalize_report) fun _ h =>
              node_fn_case env h .persist_result

/-! ## The graph -/

theorem on_case_save (thread_id : String) {state : Option EvaluationState}
    (h : ∀ s, state = some s → OfCase evaluation_id tenant_id s) :
    OnCase evaluation_id tenant_id (save_interrupted thread_id state) := by
  refine keeps_write fun w => ⟨.inl rfl, fun thread s hs => ?_⟩
  by_cases heq : thread = thread_id
  · rw [heq] at hs
    exact .inr (h s ((Function.update_self thread_id state w.interrupted).symm.trans hs))
  · exact .inl ((Function.update_of_ne heq state w.interrupted).symm.trans hs)

theorem on_case_forget (thread_id : String) :
    OnCase evaluation_id tenant_id (save_interrupted thread_id none) :=
  on_case_save thread_id (by rintro s ⟨⟩)

theorem on_case_interrupt (env : Env) (id : WorkflowIdentity) (resuming : Bool)
    {state : EvaluationState} (h : OfCase evaluation_id tenant_id state) :
    OnCase evaluation_id tenant_id (interrupt env id resuming state) := by
  refine keeps_bind (on_case_quiet (touches_graph_fault env)) fun _ =>
    keeps_ite (on_case_forget _) (keeps_bind (on_case_save _ ?_) fun _ => keeps_raise _)
  rintro _ ⟨⟩
  exact h

/-- The state that waits is the one before the gate. -/
theorem gate_node_case (env : Env) (id : WorkflowIdentity) (resuming : Bool)
    {state : EvaluationState} (h : OfCase evaluation_id tenant_id state) :
    InCase evaluation_id tenant_id (quality_gate_node env id resuming state) := by
  refine in_case_then (node_fn_case env h .quality_gate) fun merged hmerged => in_case_ite ?_ ?_
  · exact in_case_bind (on_case_quiet (touches_checkpoint env _ _ _ _ _ _)) fun _ =>
      in_case_bind (on_case_quiet (touches_checkpoint env _ _ _ _ _ _)) fun _ =>
        in_case_bind (on_case_interrupt env id resuming h) fun _ => in_case_pure hmerged
  · exact in_case_bind (on_case_quiet (touches_checkpoint env _ _ _ _ _ _)) fun _ =>
      in_case_ite (in_case_bind (on_case_forget _) fun _ => in_case_pure hmerged)
        (in_case_pure hmerged)

theorem graph_node_case (env : Env) (id : WorkflowIdentity) (resuming : Bool)
    {state : EvaluationState} (h : OfCase evaluation_id tenant_id state) (node : Node) :
    InCase evaluation_id tenant_id (graph_node env id resuming state node) :=
  in_case_bind (on_case_quiet (touches_graph_fault env)) fun _ =>
    in_case_ite (gate_node_case env id resuming h)
      (in_case_bind (on_case_quiet (touches_checkpoint env _ _ _ _ _ _)) fun _ =>
        node_fn_case env h node)

theorem on_case_run_nodes (env : Env) (id : WorkflowIdentity) (resuming : Bool)
    (nodes : List Node) {state : EvaluationState} (h : OfCase evaluation_id tenant_id state) :
    OnCase evaluation_id tenant_id
      (catching (run_nodes env id resuming nodes state) (on_interrupt env)) := by
  have hnodes : InCase evaluation_id tenant_id (nodes.foldlM (graph_node env id resuming) state) :=
    in_case_foldlM (fun s node hs => graph_node_case env id resuming hs node) nodes h
  exact keeps_catching
    (keeps_bind hnodes.on_case fun _ => on_case_quiet (touches_graph_fault env))
    fun e => on_case_quiet (touches_on_interrupt env e)

/-! ## The workflows -/

/-- The run of an evaluation job is on the case of its resource. -/
theorem on_case_evaluation (env : Env) (job : Job) (tenant_id : String) :
    OnCase job.resource_id tenant_id (run_evaluation_job env job tenant_id) := by
  have hfinish : ∀ status thread_id, OnCase job.resource_id tenant_id
      (finish env job status tenant_id thread_id (some job.resource_id)) := fun status thread_id =>
    on_case_of_touches (K := [.jobs]) (touches_finish env (by simp) _ _ _ _ _) (by simp) (by simp)
  have hthread : OnCase job.resource_id tenant_id (thread_of env job "eval") :=
    on_case_quiet (touches_thread_of env job "eval")
  have hcompat : ∀ thread_id status nodes, OnCase job.resource_id tenant_id
      (append_checkpoints env thread_id job tenant_id nodes >>= fun _ =>
        finish env job status tenant_id thread_id (some job.resource_id)) :=
    fun thread_id status nodes =>
      keeps_bind (on_case_quiet (touches_checkpoints env _ _ _ _)) fun _ => hfinish _ _
  have hgraph : OnCase job.resource_id tenant_id (run_evaluation_graph env job tenant_id) := by
    refine keeps_bind hthread fun thread_id => keeps_catching ?_ fun e => ?_
    · have hstate : OfCase job.resource_id tenant_id (initial_state tenant_id job.resource_id
          job.trace_id thread_id job.job_id (evaluation_payload job)) :=
        ⟨rfl, rfl, by rintro _ ⟨⟩⟩
      exact keeps_bind (keeps_bind (on_case_forget _) fun _ =>
        on_case_run_nodes env _ _ _ hstate) fun _ => hfinish _ _
    · rcases e with api | _ | raised
      · exact keeps_raise _
      · exact hfinish _ _
      · exact keeps_raise _
  have hworkflow : OnCase job.resource_id tenant_id
      (run_evaluation_workflow env job tenant_id) := by
    refine keeps_bind hthread fun thread_id => keeps_bind keeps_read fun w =>
      keeps_bind (keeps_lift _) fun mode => ?_
    cases mode with
    | compat => exact keeps_ite (hcompat _ _ _) (hcompat _ _ _)
    | langgraph =>
      exact keeps_catching hgraph fun e => keeps_ite (keeps_raise _) (hcompat _ _ _)
  exact keeps_bind hworkflow fun result =>
    keeps_bind (on_case_quiet (touches_evaluation_checkpoint env _ _ _)) fun _ => keeps_pure _

end bid_evaluation.case_steps
