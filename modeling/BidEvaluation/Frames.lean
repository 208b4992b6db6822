-- Which parts of the world each program can change. Everything else stays
-- as it was, whether the program returns or raises. A part that no law
-- looks at (checkpoints, counters, ..) has no name here. The audit log counts as
-- the same when it only got longer.
import BidEvaluation.Operations
import Mathlib.Data.List.Infix

open dict_lib stepwise bid_evaluation.values bid_evaluation.core bid_evaluation.store_ops
  bid_evaluation.store_workflow bid_evaluation.store_admin bid_evaluation.store_retrieval
  bid_evaluation.store_parse bid_evaluation.evaluation_nodes bid_evaluation.langgraph_runtime
  bid_evaluation.store_eval bid_evaluation.job_run

namespace bid_evaluation.frames

/-! ## Parts of the world -/

inductive Part where
  | jobs
  | documents
  | chunks
  | reports
  | tokens
  | outbox
  | dlq
  | interrupted
  | index
  | audit
deriving DecidableEq

/-- The two worlds agree on a part. -/
abbrev Same (w w' : World) : Part → Prop
  | .jobs => w'.store.jobs = w.store.jobs
  | .documents => w'.store.documents = w.store.documents
  | .chunks => w'.store.document_chunks = w.store.document_chunks
  | .reports => w'.store.evaluation_reports = w.store.evaluation_reports
  | .tokens => w'.store.resume_tokens = w.store.resume_tokens
  | .outbox => w'.store.domain_events_outbox = w.store.domain_events_outbox
  | .dlq => w'.store.dlq_items = w.store.dlq_items
  | .interrupted => w'.interrupted = w.interrupted
  | .index => w'.index_log = w.index_log
  | .audit => w.store.audit_logs <+: w'.store.audit_logs

theorem Same.refl (w : World) (p : Part) : Same w w p := by
  cases p <;> rfl

theorem Same.trans {w w' w'' : World} {p : Part} (h : Same w w' p) (h' : Same w' w'' p) :
    Same w w'' p := by
  cases p with
  | audit => exact List.IsPrefix.trans h h'
  | _ => exact Eq.trans h' h

/-- Only the parts of `K` changed, and draws went on. -/
structure Frame (K : List Part) (w w' : World) : Prop where
  same : ∀ p, p ∉ K → Same w w' p
  draws : w.draws ≤ w'.draws

theorem Frame.refl {K : List Part} (w : World) : Frame K w w :=
  ⟨fun p _ => Same.refl w p, Nat.le_refl _⟩

theorem Frame.trans {K : List Part} {w w' w'' : World} (h : Frame K w w') (h' : Frame K w' w'') :
    Frame K w w'' :=
  ⟨fun p hp => (h.same p hp).trans (h'.same p hp), Nat.le_trans h.draws h'.draws⟩

theorem Frame.mono {K K' : List Part} {w w' : World} (h : Frame K w w') (hK : K ⊆ K') :
    Frame K' w w' :=
  ⟨fun p hp => h.same p (fun hin => hp (hK hin)), h.draws⟩

/-- One write: the disk stays, or it gets the store as it is. -/
def DiskStep (w w' : World) : Prop :=
  w'.disk = w.disk ∨ (w'.disk = some w.store ∧ w'.store = w.store)

/-- One write that changes only the parts of `K`. -/
structure Only (K : List Part) (w w' : World) : Prop where
  frame : Frame K w w'
  disk : DiskStep w w'

theorem Only.mono {K K' : List Part} {w w' : World} (h : Only K w w') (hK : K ⊆ K') :
    Only K' w w' := ⟨h.frame.mono hK, h.disk⟩

/-- A program that changes only the parts of `K`. -/
abbrev Touches (K : List Part) (m : Act α) : Prop := Keeps (Only K) m

theorem Touches.frame {K : List Part} {m : Act α} (h : Touches K m) (w : World) :
    Frame K w (m.final w) :=
  Keeps.final (h.mono (fun _ _ ho => ho.frame)) Frame.refl (fun _ _ _ => Frame.trans) w

theorem Touches.widen {K K' : List Part} {m : Act α} (h : Touches K m) (hK : K ⊆ K') :
    Touches K' m := Keeps.mono h (fun _ _ ho => ho.mono hK)

variable {K : List Part}

/-! ## The small writes -/

/-- A write to the store that leaves the parts outside `K` alone. -/
theorem touches_update {f : Store → Store}
    (h : ∀ w : World, ∀ p, p ∉ K → Same w { w with store := f w.store } p) :
    Touches K (update f) :=
  keeps_write (fun w => ⟨⟨h w, Nat.le_refl _⟩, .inl rfl⟩)

/-- A write to parts that have no name. -/
theorem touches_noise {f : Store → Store}
    (h : ∀ w : World, ∀ p, Same w { w with store := f w.store } p) : Touches K (update f) :=
  touches_update (fun w p _ => h w p)

theorem touches_draw : Touches K draw := by
  refine keeps_bind keeps_read fun w => keeps_bind (keeps_write fun w => ?_) fun _ => keeps_pure _
  exact ⟨⟨fun p _ => by cases p <;> rfl, Nat.le_succ _⟩, .inl rfl⟩

theorem touches_uuid4 (env : Env) : Touches K (uuid4_hex12 env) :=
  keeps_bind touches_draw fun _ => keeps_pure _

theorem touches_utcnow (env : Env) : Touches K (utcnow env) :=
  keeps_bind touches_draw fun _ => keeps_pure _

theorem touches_new_thread_id (env : Env) (kind : String) : Touches K (new_thread_id env kind) :=
  keeps_bind touches_draw fun _ => keeps_pure _

theorem touches_save_state (env : Env) : Touches K (save_state env) := by
  unfold save_state
  refine keeps_ite (keeps_write fun w => ?_) (keeps_pure _)
  exact ⟨⟨fun p _ => by cases p <;> rfl, Nat.le_refl _⟩, .inr ⟨rfl, rfl⟩⟩

theorem touches_saving {env : Env} {m : Act α} (h : Touches K m) : Touches K (saving env m) :=
  keeps_bind h fun _ => keeps_bind (touches_save_state env) fun _ => keeps_pure _

theorem touches_scope (entity_tenant_id tenant_id : String) :
    Touches K (assert_tenant_scope entity_tenant_id tenant_id) :=
  keeps_ite (keeps_raise _) (keeps_pure _)

theorem touches_persist_job (hK : .jobs ∈ K) (job : Job) : Touches K (persist_job job) := by
  refine keeps_bind (touches_update fun w p hp => ?_) fun _ => keeps_pure _
  cases p <;> first | rfl | exact absurd hK hp

theorem touches_persist_document (hd : .documents ∈ K) (hc : .chunks ∈ K) (document : Document) :
    Touches K (persist_document document) := by
  refine touches_update fun w p hp => ?_
  cases p <;> first | rfl | exact absurd hd hp | exact absurd hc hp

theorem touches_persist_manifest (manifest : ParseManifest) :
    Touches K (persist_parse_manifest manifest) :=
  touches_noise fun w p => by cases p <;> rfl

theorem touches_persist_dlq_item (hK : .dlq ∈ K) (item : DlqItem) :
    Touches K (persist_dlq_item item) := by
  refine keeps_bind (touches_update fun w p hp => ?_) fun _ => keeps_pure _
  cases p <;> first | rfl | exact absurd hK hp

theorem touches_put_held_object (env : Env) (tenant_id object_type object_id : String) :
    Touches K (put_held_object env tenant_id object_type object_id) := by
  refine keeps_bind touches_draw fun n => keeps_bind (keeps_lift _) fun uri =>
    keeps_bind keeps_read fun w => ?_
  split
  · exact keeps_pure _
  · refine keeps_bind (touches_noise fun w p => by cases p <;> rfl) fun _ => ?_
    exact keeps_bind touches_draw fun _ => keeps_bind (keeps_lift _) fun _ => keeps_pure _

theorem touches_persist_report (env : Env) (hK : .reports ∈ K) (report : EvaluationReport) :
    Touches K (persist_evaluation_report env report) := by
  refine keeps_bind ?_ fun archived => touches_update fun w p hp => ?_
  · exact keeps_ite (keeps_pure _)
      (keeps_bind (touches_put_held_object env _ _ _) fun _ => keeps_pure _)
  · cases p <;> first | rfl | exact absurd hK hp

theorem touches_audit (env : Env) (tenant_id action : String) (details : PyDict) :
    Touches K (append_audit_log env tenant_id action details) :=
  keeps_bind (touches_uuid4 env) fun _ => keeps_bind (touches_utcnow env) fun _ =>
    touches_noise fun w p => by
      cases p with
      | audit => exact List.prefix_append _ _
      | _ => rfl

/-! ## The workflow -/

theorem touches_register_token (env : Env) (hK : .tokens ∈ K)
    (evaluation_id resume_token tenant_id : String) (reasons : List String) :
    Touches K (register_resume_token env evaluation_id resume_token tenant_id reasons) := by
  refine touches_saving (keeps_bind (touches_utcnow env) fun _ => touches_update fun w p hp => ?_)
  cases p <;> first | rfl | exact absurd hK hp

theorem touches_validate_token (env : Env) (evaluation_id resume_token tenant_id : String) :
    Touches K (validate_resume_token env evaluation_id resume_token tenant_id) := by
  refine keeps_bind keeps_read fun w => ?_
  split
  · exact keeps_pure _
  · refine keeps_bind (touches_scope _ _) fun _ => keeps_ite (keeps_pure _) ?_
    exact keeps_bind (touches_utcnow env) fun _ => keeps_pure _

theorem touches_consume_token (env : Env) (hK : .tokens ∈ K)
    (evaluation_id resume_token tenant_id : String) :
    Touches K (consume_resume_token env evaluation_id resume_token tenant_id) := by
  refine touches_saving (keeps_bind (touches_validate_token env _ _ _) fun valid =>
    keeps_ite (keeps_bind (touches_utcnow env) fun used_at => keeps_bind ?_ fun _ => keeps_pure _)
      (keeps_pure _))
  refine touches_update fun w p hp => ?_
  unfold use_token
  split
  · exact Same.refl w p
  · cases p <;> first | rfl | exact absurd hK hp

theorem touches_checkpoint (env : Env) (thread_id job_id tenant_id node status : String)
    (payload : PyDict) :
    Touches K (append_workflow_checkpoint env thread_id job_id tenant_id node status payload) :=
  keeps_bind (touches_uuid4 env) fun _ => keeps_bind (touches_utcnow env) fun _ =>
    touches_noise fun w p => by cases p <;> rfl

theorem touches_checkpoints (env : Env) (thread_id : String) (job : Job) (tenant_id : String)
    (nodes : List (String × String × PyDict)) :
    Touches K (append_checkpoints env thread_id job tenant_id nodes) :=
  keeps_foldlM (fun _ _ => touches_checkpoint env _ _ _ _ _ _) () nodes

theorem touches_outbox (env : Env) (hK : .outbox ∈ K)
    (tenant_id event_type aggregate_type aggregate_id : String) (payload : PyDict) :
    Touches K (append_outbox_event env tenant_id event_type aggregate_type aggregate_id payload) :=
  by
  refine touches_saving (keeps_bind (touches_uuid4 env) fun _ =>
    keeps_bind (touches_utcnow env) fun _ =>
      keeps_bind (touches_update fun w p hp => ?_) fun _ => keeps_pure _)
  cases p <;> first | rfl | exact absurd hK hp

theorem touches_seed_dlq_item (env : Env) (hK : .dlq ∈ K)
    (job_id error_class error_code tenant_id : String) :
    Touches K (seed_dlq_item env job_id error_class error_code tenant_id) :=
  touches_saving (keeps_bind (touches_uuid4 env) fun _ => touches_persist_dlq_item hK _)

/-! ## Jobs -/

theorem touches_require_job (job_id : String) (tenant_id : Option String) :
    Touches K (require_job job_id tenant_id) := by
  refine keeps_bind keeps_read fun w => ?_
  split
  · exact keeps_raise _
  · split
    · exact keeps_pure _
    · exact keeps_bind (touches_scope _ _) fun _ => keeps_pure _

theorem touches_transition (env : Env) (hK : .jobs ∈ K) (job_id : String) (status : JobStatus)
    (tenant_id : Option String) :
    Touches K (transition_job_status env job_id status tenant_id) :=
  touches_saving (keeps_bind (touches_require_job _ _) fun _ =>
    keeps_ite (keeps_pure _) (keeps_ite (keeps_raise _) (touches_persist_job hK _)))

theorem touches_finish (env : Env) (hK : .jobs ∈ K) (job : Job) (status : JobStatus)
    (tenant_id thread_id : String) (evaluation_id : Option String) :
    Touches K (finish env job status tenant_id thread_id evaluation_id) :=
  keeps_bind (touches_transition env hK _ _ _) fun _ => keeps_pure _

theorem touches_thread_of (env : Env) (job : Job) (kind : String) :
    Touches K (thread_of env job kind) :=
  keeps_ite (touches_new_thread_id env kind) (keeps_pure _)

/-! ## The evaluation nodes -/

theorem touches_register_source (env : Env) (chunk_id : String) (source : CitationSource) :
    Touches K (register_citation_source env chunk_id source) :=
  touches_saving (touches_noise fun w p => by cases p <;> rfl)

theorem touches_load_context (env : Env) (state : EvaluationState) :
    Touches K (node_load_context env state) :=
  keeps_bind keeps_read fun _ => keeps_bind (keeps_lift _) fun _ => keeps_pure _

theorem touches_gather_evidence (env : Env) (criteria_defs : List PyVal) :
    Touches K (gather_evidence env criteria_defs) :=
  keeps_foldlM (fun _ _ => keeps_bind touches_draw fun _ => keeps_bind (keeps_lift _) fun _ =>
    keeps_pure _) _ _

theorem touches_register_sources (env : Env) (state : EvaluationState)
    (criteria_evidence : List (String × List Evidence)) (citations_all_ids : List String) :
    Touches K (register_citation_sources env state criteria_evidence citations_all_ids) := by
  refine keeps_foldlM (fun _ id => keeps_bind keeps_read fun w => ?_) _ _
  split
  · exact keeps_pure _
  · split
    · exact keeps_pure _
    · exact touches_register_source env _ _

theorem touches_retrieve_evidence (env : Env) (state : EvaluationState) :
    Touches K (node_retrieve_evidence env state) :=
  keeps_bind (touches_gather_evidence env _) fun _ =>
    keeps_bind (touches_register_sources env _ _ _) fun _ => keeps_pure _

theorem touches_evaluate_rules (env : Env) (state : EvaluationState) :
    Touches K (node_evaluate_rules env state) := keeps_pure _

theorem touches_score_criteria (env : Env) (state : EvaluationState) (acc : Scoring)
    (criteria : PyDict) : Touches K (score_criteria env state acc criteria) := by
  refine keeps_ite (keeps_pure _) (keeps_bind (keeps_lift _) fun _ => ?_)
  refine keeps_ite (keeps_pure _) (keeps_bind touches_draw fun _ => ?_)
  exact keeps_bind (keeps_lift _) fun _ => keeps_bind keeps_read fun _ => keeps_pure _

theorem touches_score_with_llm (env : Env) (state : EvaluationState) :
    Touches K (node_score_with_llm env state) :=
  keeps_bind (keeps_foldlM (fun _ _ => touches_score_criteria env state _ _) _ _) fun _ =>
    keeps_bind keeps_read fun _ => keeps_pure _

theorem touches_issue_token (env : Env) (hK : .tokens ∈ K) (state : EvaluationState)
    (reasons : List String) : Touches K (issue_resume_token env state reasons) :=
  keeps_ite (keeps_pure _) (keeps_bind (touches_uuid4 env) fun _ =>
    keeps_bind (touches_register_token env hK _ _ _ _) fun _ => keeps_pure _)

theorem touches_quality_gate (env : Env) (hK : .tokens ∈ K) (state : EvaluationState) :
    Touches K (node_quality_gate env state) :=
  keeps_bind keeps_read fun _ => keeps_bind (touches_issue_token env hK _ _) fun _ => keeps_pure _

theorem touches_finalize_report (state : EvaluationState) :
    Touches K (node_finalize_report state) := keeps_bind keeps_read fun _ => keeps_pure _

theorem touches_persist_result (env : Env) (hK : .reports ∈ K) (state : EvaluationState) :
    Touches K (node_persist_result env state) := by
  unfold node_persist_result
  split
  · exact keeps_raise _
  · exact keeps_bind (touches_persist_report env hK _) fun _ => keeps_pure _

theorem touches_nodes (env : Env) (ht : .tokens ∈ K) (hr : .reports ∈ K)
    (state : EvaluationState) : Touches K (run_evaluation_nodes_sequentially env state) :=
  keeps_bind (touches_load_context env _) fun _ =>
    keeps_bind (touches_retrieve_evidence env _) fun _ =>
      keeps_bind (touches_evaluate_rules env _) fun _ =>
        keeps_bind (touches_score_with_llm env _) fun _ =>
          keeps_bind (touches_quality_gate env ht _) fun _ =>
            keeps_bind (touches_finalize_report _) fun _ => touches_persist_result env hr _

/-! ## The graph -/

theorem touches_graph_fault (env : Env) : Touches K (graph_fault env) := by
  refine keeps_bind touches_draw fun n => ?_
  split
  · exact keeps_raise _
  · exact keeps_pure _

theorem touches_save_interrupted (hK : .interrupted ∈ K) (thread_id : String)
    (state : Option EvaluationState) : Touches K (save_interrupted thread_id state) := by
  refine keeps_write fun w => ⟨⟨fun p hp => ?_, Nat.le_refl _⟩, .inl rfl⟩
  cases p <;> first | rfl | exact absurd hK hp

theorem touches_interrupt (env : Env) (hK : .interrupted ∈ K) (id : WorkflowIdentity)
    (resuming : Bool) (state : EvaluationState) : Touches K (interrupt env id resuming state) :=
  keeps_bind (touches_graph_fault env) fun _ =>
    keeps_ite (touches_save_interrupted hK _ _)
      (keeps_bind (touches_save_interrupted hK _ _) fun _ => keeps_raise _)

theorem touches_gate_node (env : Env) (ht : .tokens ∈ K) (hi : .interrupted ∈ K)
    (id : WorkflowIdentity) (resuming : Bool) (state : EvaluationState) :
    Touches K (quality_gate_node env id resuming state) := by
  refine keeps_bind (touches_quality_gate env ht state) fun merged => keeps_ite ?_ ?_
  · exact keeps_bind (touches_checkpoint env _ _ _ _ _ _) fun _ =>
      keeps_bind (touches_checkpoint env _ _ _ _ _ _) fun _ =>
        keeps_bind (touches_interrupt env hi id resuming state) fun _ => keeps_pure _
  · exact keeps_bind (touches_checkpoint env _ _ _ _ _ _) fun _ =>
      keeps_ite (keeps_bind (touches_save_interrupted hi _ _) fun _ => keeps_pure _) (keeps_pure _)

/-- A node other than the gate writes no token. -/
theorem touches_plain_fn (env : Env) (hr : .reports ∈ K) (state : EvaluationState) {node : Node}
    (hnode : node ≠ .quality_gate) : Touches K (node_fn env state node) := by
  cases node with
  | load_context => exact touches_load_context env state
  | retrieve_evidence => exact touches_retrieve_evidence env state
  | evaluate_rules => exact touches_evaluate_rules env state
  | score_with_llm => exact touches_score_with_llm env state
  | quality_gate => exact absurd rfl hnode
  | finalize_report => exact touches_finalize_report state
  | persist_result => exact touches_persist_result env hr state

theorem touches_node_fn (env : Env) (ht : .tokens ∈ K) (hr : .reports ∈ K)
    (state : EvaluationState) (node : Node) : Touches K (node_fn env state node) := by
  by_cases hnode : node = .quality_gate
  · subst hnode
    exact touches_quality_gate env ht state
  · exact touches_plain_fn env hr state hnode

theorem touches_graph_node (env : Env) (ht : .tokens ∈ K) (hr : .reports ∈ K)
    (hi : .interrupted ∈ K) (id : WorkflowIdentity) (resuming : Bool) (state : EvaluationState)
    (node : Node) : Touches K (graph_node env id resuming state node) :=
  keeps_bind (touches_graph_fault env) fun _ =>
    keeps_ite (touches_gate_node env ht hi id resuming state)
      (keeps_bind (touches_checkpoint env _ _ _ _ _ _) fun _ =>
        touches_node_fn env ht hr state node)

theorem touches_on_interrupt (env : Env) (e : PyErr) : Touches K (on_interrupt env e) := by
  unfold on_interrupt
  split
  · exact keeps_bind touches_draw fun _ => keeps_ite (keeps_raise _) (keeps_pure _)
  · exact keeps_raise _

theorem touches_run_nodes (env : Env) (ht : .tokens ∈ K) (hr : .reports ∈ K)
    (hi : .interrupted ∈ K) (id : WorkflowIdentity) (resuming : Bool) (nodes : List Node)
    (state : EvaluationState) : Touches K (run_nodes env id resuming nodes state) :=
  keeps_bind (keeps_foldlM (fun _ _ => touches_graph_node env ht hr hi id resuming _ _) _ _)
    fun _ => touches_graph_fault env

theorem touches_invoke (env : Env) (ht : .tokens ∈ K) (hr : .reports ∈ K)
    (hi : .interrupted ∈ K) (id : WorkflowIdentity) (state : EvaluationState) :
    Touches K (invoke env id state) :=
  keeps_bind (touches_save_interrupted hi _ _) fun _ =>
    keeps_catching (touches_run_nodes env ht hr hi id _ _ _) fun e => touches_on_interrupt env e

theorem touches_invoke_resume (env : Env) (ht : .tokens ∈ K) (hr : .reports ∈ K)
    (hi : .interrupted ∈ K) (id : WorkflowIdentity) : Touches K (invoke_resume env id) := by
  refine keeps_bind keeps_read fun w => ?_
  split
  · exact touches_graph_fault env
  · exact keeps_catching (touches_run_nodes env ht hr hi id _ _ _) fun e =>
      touches_on_interrupt env e

/-! ## Parsing -/

theorem touches_replace_chunks (hK : .chunks ∈ K) (tenant_id document_id : String)
    (chunks : List PyDict) : Touches K (replace_chunks tenant_id document_id chunks) := by
  refine keeps_bind keeps_read fun w => ?_
  split
  · exact keeps_pure _
  · refine keeps_ite (keeps_pure _)
      (keeps_bind (touches_update fun w p hp => ?_) fun _ => keeps_pure _)
    cases p <;> first | rfl | exact absurd hK hp

theorem touches_persist_chunks (env : Env) (hK : .chunks ∈ K) (tenant_id document_id : String)
    (chunks : List PyDict) :
    Touches K (persist_document_chunks env tenant_id document_id chunks) :=
  keeps_bind (keeps_lift _) fun _ => touches_replace_chunks hK _ _ _

theorem touches_fail_manifest (env : Env) (manifest : ParseManifest) (error_code : String) :
    Touches K (fail_manifest env manifest error_code) :=
  keeps_bind (touches_utcnow env) fun _ => touches_persist_manifest _

theorem touches_mineru_call (env : Env) (hK : .chunks ∈ K)
    (document_id tenant_id job_id : String) (outcome : MineruOutcome) :
    Touches K (parse_and_persist env document_id tenant_id job_id outcome) := by
  refine keeps_bind keeps_read fun w => ?_
  split
  · exact keeps_pure _
  · refine keeps_bind (touches_utcnow env) fun _ => keeps_bind (touches_persist_manifest _) fun _ => ?_
    split
    · exact touches_fail_manifest env _ _
    · refine keeps_bind (keeps_ite (keeps_pure _)
        (keeps_bind (touches_replace_chunks hK _ _ _) fun _ => keeps_pure _)) fun _ =>
          keeps_bind (touches_utcnow env) fun _ => keeps_bind (touches_persist_manifest _) fun _ =>
            keeps_bind keeps_read fun w => ?_
      split
      · exact keeps_pure _
      · exact touches_fail_manifest env _ _

theorem touches_mineru (env : Env) (hK : .chunks ∈ K) (document_id tenant_id : String)
    (manifest : Option ParseManifest) :
    Touches K (try_mineru_official_api env document_id tenant_id manifest) := by
  unfold try_mineru_official_api
  split
  · exact keeps_pure _
  · exact keeps_bind touches_draw fun n =>
      keeps_foldlM (fun _ outcome => touches_mineru_call env hK _ _ _ outcome) _ _

theorem touches_candidates (env : Env) (attempts : Nat) (last_error : Option String)
    (names : List String) : Touches K (parse_candidates env attempts last_error names) := by
  induction names generalizing last_error with
  | nil => exact keeps_raise _
  | cons name rest ih =>
    unfold parse_candidates
    split
    · exact ih _
    · refine keeps_bind touches_draw fun n => ?_
      split
      · exact keeps_pure _
      · exact ih _
      · exact keeps_raise _

theorem touches_parse_by_route (env : Env) (document_id : String)
    (manifest : Option ParseManifest) : Touches K (parse_by_route env document_id manifest) :=
  keeps_bind (touches_candidates env _ _ _) fun _ => keeps_bind (keeps_lift _) fun _ =>
    keeps_ite (keeps_bind (touches_noise fun w p => by cases p <;> rfl) fun _ => keeps_pure _)
      (keeps_pure _)

theorem touches_parse_file (env : Env) (hK : .chunks ∈ K) (document : Document)
    (tenant_id : String) (manifest : Option ParseManifest) :
    Touches K (parse_document_file env document tenant_id manifest) := by
  refine keeps_bind (touches_mineru env hK _ _ _) fun _ => keeps_bind touches_draw fun n => ?_
  split
  · exact keeps_pure _
  · exact touches_parse_by_route env _ _

theorem touches_index (env : Env) (hK : .index ∈ K)
    (tenant_id project_id document_id : String) (chunks : List PyDict) :
    Touches K (maybe_index_chunks_to_lightrag env tenant_id project_id document_id chunks) := by
  have hseg : ∀ value name, Touches K (validate_index_segment value name) := fun _ _ =>
    keeps_ite (keeps_pure _) (keeps_raise _)
  have hlog : ∀ failed, Touches K (log_index_write document_id chunks failed) := by
    intro failed
    refine keeps_write fun w => ⟨⟨fun p hp => ?_, Nat.le_refl _⟩, .inl rfl⟩
    cases p <;> first | rfl | exact absurd hK hp
  refine keeps_ite (keeps_pure _) (keeps_bind ?_ fun _ =>
    keeps_bind (touches_noise fun w p => by cases p <;> rfl) fun _ =>
      keeps_bind touches_draw fun n => ?_)
  · exact keeps_bind (hseg _ _) fun _ => keeps_bind (hseg _ _) fun _ => keeps_pure _
  · split
    · exact hlog _
    · exact keeps_bind (hlog _) fun _ => touches_noise fun w p => by cases p <;> rfl
    · exact keeps_bind (hlog _) fun _ => keeps_raise _

theorem touches_register_chunks (env : Env) (document : Document) (tenant_id : String)
    (chunks : List PyDict) : Touches K (register_chunks env document tenant_id chunks) :=
  keeps_foldlM (fun _ _ => keeps_bind (keeps_lift _) fun _ => touches_register_source env _ _) _ _

theorem touches_persist_counted (manifest : Option ParseManifest)
    (parsed persisted : List PyDict) : Touches K (persist_counted manifest parsed persisted) := by
  unfold persist_counted
  split
  · exact keeps_pure _
  · exact touches_persist_manifest _

theorem touches_index_document (env : Env) (hc : .chunks ∈ K) (hi : .index ∈ K)
    (document : Document) (tenant_id : String) (manifest : Option ParseManifest) :
    Touches K (index_document env document tenant_id manifest) :=
  keeps_bind (touches_parse_file env hc document tenant_id manifest) fun _ =>
    keeps_bind (touches_persist_chunks env hc _ _ _) fun _ =>
      keeps_bind (touches_persist_counted _ _ _) fun _ =>
        keeps_bind (touches_register_chunks env _ _ _) fun _ => touches_index env hi _ _ _ _

/-! ## Pieces of a run -/

theorem touches_change_manifest {change : ParseManifest → Act ParseManifest}
    (h : ∀ m, Touches K (change m)) (job_id tenant_id : String) :
    Touches K (change_manifest job_id tenant_id change) := by
  refine keeps_bind keeps_read fun w => ?_
  split
  · exact keeps_pure _
  · exact keeps_bind (h _) fun _ => touches_persist_manifest _

theorem touches_change_parse_manifest {change : ParseManifest → Act ParseManifest}
    (h : ∀ m, Touches K (change m)) (job : Job) (tenant_id : String) :
    Touches K (change_parse_manifest job tenant_id change) :=
  keeps_ite (touches_change_manifest h _ _) (keeps_pure _)

theorem touches_started_manifest (env : Env) (manifest : ParseManifest) :
    Touches K (started_manifest env manifest) := by
  refine keeps_bind ?_ fun _ => keeps_pure _
  unfold first_start
  split
  · exact keeps_pure _
  · exact touches_utcnow env

theorem touches_start_parse (env : Env) (job : Job) (tenant_id : String) :
    Touches K (start_parse env job tenant_id) :=
  keeps_ite (keeps_bind (touches_change_manifest (touches_started_manifest env) _ _) fun _ =>
    touches_noise fun w p => by cases p <;> rfl) (keeps_pure _)

theorem touches_get_document (document_id tenant_id : String) :
    Touches K (get_document_for_tenant document_id tenant_id) := by
  refine keeps_bind keeps_read fun w => ?_
  split
  · exact keeps_pure _
  · exact keeps_bind (touches_scope _ _) fun _ => keeps_pure _

theorem touches_mark_document (hd : .documents ∈ K) (hc : .chunks ∈ K) (job : Job)
    (tenant_id status : String) : Touches K (mark_document job tenant_id status) := by
  refine keeps_bind (touches_get_document _ _) fun document => ?_
  split
  · exact keeps_pure _
  · exact keeps_bind (touches_persist_document hd hc _) fun _ => keeps_pure _

theorem touches_fail_parse (env : Env) (hd : .documents ∈ K) (hc : .chunks ∈ K) (job : Job)
    (tenant_id error_code : String) : Touches K (fail_parse env job tenant_id error_code) :=
  keeps_ite (keeps_bind (touches_change_manifest (fun _ =>
    keeps_bind (touches_utcnow env) fun _ => keeps_pure _) _ _) fun _ =>
      keeps_bind (touches_mark_document hd hc _ _ _) fun _ => keeps_pure _) (keeps_pure _)

theorem touches_list_chunks (document_id tenant_id : String) :
    Touches K (list_document_chunks_for_tenant document_id tenant_id) := by
  refine keeps_bind (touches_get_document _ _) fun document => ?_
  split
  · exact keeps_raise _
  · exact keeps_bind keeps_read fun _ => keeps_pure _

theorem touches_mark_parsed (env : Env) (hd : .documents ∈ K) (hc : .chunks ∈ K) (job : Job)
    (tenant_id : String) : Touches K (mark_parsed env job tenant_id) :=
  keeps_bind (touches_change_manifest (fun _ => keeps_bind (touches_utcnow env) fun _ =>
    keeps_pure _) _ _) fun _ => keeps_bind keeps_read fun _ =>
      keeps_bind (touches_mark_document hd hc _ _ _) fun _ => keeps_pure _

theorem touches_succeed_parse (env : Env) (hd : .documents ∈ K) (hc : .chunks ∈ K)
    (hi : .index ∈ K) (job : Job) (tenant_id : String) :
    Touches K (succeed_parse env job tenant_id) := by
  refine keeps_ite ?_ (keeps_pure _)
  refine keeps_bind (touches_mark_parsed env hd hc _ _) fun (document, manifest) => ?_
  cases document
  · exact keeps_pure _
  · exact keeps_bind (touches_list_chunks _ _) fun _ =>
      keeps_ite (touches_index_document env hc hi _ _ _) (keeps_pure _)

theorem touches_evaluation_checkpoint (env : Env) (job : Job) (tenant_id : String)
    (result : RunResult) : Touches K (evaluation_checkpoint env job tenant_id result) :=
  keeps_ite (touches_checkpoint env _ _ _ _ _ _)
    (keeps_ite (touches_checkpoint env _ _ _ _ _ _) (keeps_pure _))

end bid_evaluation.frames
