-- The small writes that every program of the service is made of, and which
-- kinds of them each program makes. A law about one kind of write reads here
-- which programs do not make it.
import BidEvaluation.Operations

open dict_lib stepwise bid_evaluation.values bid_evaluation.core bid_evaluation.store_ops
  bid_evaluation.store_workflow bid_evaluation.store_admin bid_evaluation.store_retrieval
  bid_evaluation.store_parse bid_evaluation.evaluation_nodes bid_evaluation.langgraph_runtime
  bid_evaluation.store_eval bid_evaluation.job_run bid_evaluation.operations

namespace bid_evaluation.writes

/-! ## The small writes -/

inductive Kind where
  | noise
  | jobs
  | documents
  | manifests
  | chunks
  | reports
  | tokens
  | outbox
  | dlq
  | interrupted
  | index
  | sources
deriving DecidableEq

/-- The small writes to the store. Most are of no kind that a law looks for. -/
inductive StoreWrite : Kind → Store → Store → Prop where
  | manifest (s : Store) (manifests : Table ParseManifest.job_id) :
      StoreWrite .manifests s { s with parse_manifests := manifests }
  | hold (s : Store) (holds : Table LegalHold.hold_id) :
      StoreWrite .noise s { s with legal_hold_objects := holds }
  | audit (s : Store) (log : AuditLog) :
    StoreWrite .noise s { s with audit_logs := s.audit_logs ++ [log] }
  | checkpoint (s : Store) (checkpoints : Dict String (List Checkpoint)) :
      StoreWrite .noise s { s with workflow_checkpoints := checkpoints }
  | metrics (s : Store) (metrics : ParserMetrics) :
      StoreWrite .noise s { s with parser_retrieval_metrics := metrics }
  | job (s : Store) (job : Job) : StoreWrite .jobs s { s with jobs := s.jobs.put job }
  | document (s : Store) (document : Document) (document_chunks : Dict String (List PyDict)) :
      StoreWrite .documents s { s with
        documents := s.documents.put document
        document_chunks := document_chunks }
  | chunks (s : Store) (document_id : String) (chunks : List PyDict) : StoreWrite .chunks s
      { s with document_chunks := s.document_chunks.set document_id chunks }
  | report (s : Store) (report : EvaluationReport) : StoreWrite .reports s
      { s with evaluation_reports := s.evaluation_reports.put report }
  | token (s : Store) (tokens : Dict String ResumeToken) :
      StoreWrite .tokens s { s with resume_tokens := tokens }
  | event (s : Store) (event : OutboxEvent) : StoreWrite .outbox s
      { s with domain_events_outbox := s.domain_events_outbox.put event }
  | item (s : Store) (item : DlqItem) :
    StoreWrite .dlq s { s with dlq_items := s.dlq_items.put item }
  /-- A source is registered under its own chunk id. -/
  | source (s : Store) (source : CitationSource) : StoreWrite .sources s
      { s with citation_sources := s.citation_sources.set source.chunk_id source }

inductive Write : Kind → World → World → Prop where
  | draw (w : World) : Write .noise w { w with draws := w.draws + 1 }
  | save (w : World) : Write .noise w { w with disk := some w.store }
  | wait (w : World) (interrupted : String → Option EvaluationState) :
      Write .interrupted w { w with interrupted := interrupted }
  | index (w : World) (entry : IndexWrite) :
      Write .index w { w with index_log := w.index_log ++ [entry] }
  | store {kind : Kind} {s : Store} (w : World) (h : StoreWrite kind w.store s) :
      Write kind w { w with store := s }

/-- A program that makes writes of the kinds in `K`, and noise. -/
abbrev Writes (K : List Kind) (m : Act α) : Prop :=
  Keeps (fun w w' => ∃ kind ∈ Kind.noise :: K, Write kind w w') m

variable {K : List Kind}

theorem Writes.widen {K' : List Kind} {m : Act α} (h : Writes K m) (hK : K ⊆ K') : Writes K' m :=
  Keeps.mono h fun _ _ ⟨kind, hkind, hwrite⟩ => ⟨kind, List.cons_subset_cons _ hK hkind, hwrite⟩

theorem writes_noise {m : World → World} (h : ∀ w, Write .noise w (m w)) :
    Writes K (write m : Act Unit) := keeps_write fun w => ⟨.noise, by simp, h w⟩

theorem writes_update {kind : Kind} (hK : kind ∈ Kind.noise :: K) {f : Store → Store}
    (h : ∀ s, StoreWrite kind s (f s)) : Writes K (update f) :=
  keeps_write fun w => ⟨kind, hK, .store w (h w.store)⟩

theorem writes_quiet {f : Store → Store} (h : ∀ s, StoreWrite .noise s (f s)) :
    Writes K (update f) :=
  writes_update (by simp) h

/-! ## Draws and saves -/

theorem writes_draw : Writes K draw :=
  keeps_bind keeps_read fun _ => keeps_bind (writes_noise .draw) fun _ => keeps_pure _

theorem writes_uuid4 (env : Env) : Writes K (uuid4_hex12 env) :=
  keeps_bind writes_draw fun _ => keeps_pure _

theorem writes_utcnow (env : Env) : Writes K (utcnow env) :=
  keeps_bind writes_draw fun _ => keeps_pure _

theorem writes_new_thread_id (env : Env) (kind : String) : Writes K (new_thread_id env kind) :=
  keeps_bind writes_draw fun _ => keeps_pure _

theorem writes_save_state (env : Env) : Writes K (save_state env) := by
  unfold save_state
  exact keeps_ite (writes_noise .save) (keeps_pure _)

theorem writes_saving {env : Env} {m : Act α} (h : Writes K m) : Writes K (saving env m) :=
  keeps_bind h fun _ => keeps_bind (writes_save_state env) fun _ => keeps_pure _

theorem writes_scope (entity_tenant_id tenant_id : String) :
    Writes K (assert_tenant_scope entity_tenant_id tenant_id) :=
  keeps_ite (keeps_raise _) (keeps_pure _)

/-! ## The records -/

theorem writes_persist_job (hK : .jobs ∈ K) (job : Job) : Writes K (persist_job job) :=
  keeps_bind (writes_update (by simp [hK]) fun s => .job s job) fun _ => keeps_pure _

theorem writes_persist_document (hK : .documents ∈ K) (document : Document) :
    Writes K (persist_document document) :=
  writes_update (by simp [hK]) fun s => .document s document _

theorem writes_persist_manifest (hm : .manifests ∈ K) (manifest : ParseManifest) :
    Writes K (persist_parse_manifest manifest) :=
  writes_update (by simp [hm]) fun s => .manifest s _

theorem writes_persist_dlq_item (hK : .dlq ∈ K) (item : DlqItem) :
    Writes K (persist_dlq_item item) :=
  keeps_bind (writes_update (by simp [hK]) fun s => .item s item) fun _ => keeps_pure _

theorem writes_put_held_object (env : Env) (tenant_id object_type object_id : String) :
    Writes K (put_held_object env tenant_id object_type object_id) := by
  refine keeps_bind writes_draw fun n => keeps_bind (keeps_lift _) fun uri =>
    keeps_bind keeps_read fun w => ?_
  split
  · exact keeps_pure _
  · refine keeps_bind (writes_quiet fun s => .hold s _) fun _ => ?_
    exact keeps_bind writes_draw fun _ => keeps_bind (keeps_lift _) fun _ => keeps_pure _

theorem writes_archive (env : Env) (report : EvaluationReport) :
    Writes K (archive_report_to_object_storage env report) :=
  keeps_ite (keeps_pure _) (keeps_bind (writes_put_held_object env _ _ _) fun _ => keeps_pure _)

theorem writes_persist_report (env : Env) (hK : .reports ∈ K) (report : EvaluationReport) :
    Writes K (persist_evaluation_report env report) :=
  keeps_bind (writes_archive env report) fun archived =>
    writes_update (by simp [hK]) fun s => .report s archived

theorem writes_audit (env : Env) (tenant_id action : String) (details : PyDict) :
    Writes K (append_audit_log env tenant_id action details) :=
  keeps_bind (writes_uuid4 env) fun _ => keeps_bind (writes_utcnow env) fun _ =>
    writes_quiet fun s => .audit s _

/-! ## The workflow -/

theorem writes_register_token (env : Env) (hK : .tokens ∈ K)
    (evaluation_id resume_token tenant_id : String) (reasons : List String) :
    Writes K (register_resume_token env evaluation_id resume_token tenant_id reasons) :=
  writes_saving (keeps_bind (writes_utcnow env) fun _ =>
    writes_update (by simp [hK]) fun s => .token s _)

theorem writes_validate_token (env : Env) (evaluation_id resume_token tenant_id : String) :
    Writes K (validate_resume_token env evaluation_id resume_token tenant_id) := by
  refine keeps_bind keeps_read fun w => ?_
  split
  · exact keeps_pure _
  · refine keeps_bind (writes_scope _ _) fun _ => keeps_ite (keeps_pure _) ?_
    exact keeps_bind (writes_utcnow env) fun _ => keeps_pure _

theorem writes_consume_token (env : Env) (hK : .tokens ∈ K)
    (evaluation_id resume_token tenant_id : String) :
    Writes K (consume_resume_token env evaluation_id resume_token tenant_id) := by
  refine writes_saving (keeps_bind (writes_validate_token env _ _ _) fun valid =>
    keeps_ite (keeps_bind (writes_utcnow env) fun used_at => keeps_bind ?_ fun _ => keeps_pure _)
      (keeps_pure _))
  refine writes_update (by simp [hK] : Kind.tokens ∈ Kind.noise :: K) fun s => ?_
  unfold use_token
  split
  · exact .token s s.resume_tokens
  · exact .token s _

theorem writes_checkpoint (env : Env) (thread_id job_id tenant_id node status : String)
    (payload : PyDict) :
    Writes K (append_workflow_checkpoint env thread_id job_id tenant_id node status payload) :=
  keeps_bind (writes_uuid4 env) fun _ => keeps_bind (writes_utcnow env) fun _ =>
    writes_quiet fun s => .checkpoint s _

theorem writes_checkpoints (env : Env) (thread_id : String) (job : Job) (tenant_id : String)
    (nodes : List (String × String × PyDict)) :
    Writes K (append_checkpoints env thread_id job tenant_id nodes) :=
  keeps_foldlM (fun _ _ => writes_checkpoint env _ _ _ _ _ _) () nodes

theorem writes_outbox (env : Env) (hK : .outbox ∈ K)
    (tenant_id event_type aggregate_type aggregate_id : String) (payload : PyDict) :
    Writes K (append_outbox_event env tenant_id event_type aggregate_type aggregate_id payload) :=
  writes_saving (keeps_bind (writes_uuid4 env) fun _ => keeps_bind (writes_utcnow env) fun _ =>
    keeps_bind (writes_update (by simp [hK]) fun s => .event s _) fun _ => keeps_pure _)

theorem writes_seed_dlq_item (env : Env) (hK : .dlq ∈ K)
    (job_id error_class error_code tenant_id : String) :
    Writes K (seed_dlq_item env job_id error_class error_code tenant_id) :=
  writes_saving (keeps_bind (writes_uuid4 env) fun _ => writes_persist_dlq_item hK _)

/-! ## Jobs -/

theorem writes_require_job (job_id : String) (tenant_id : Option String) :
    Writes K (require_job job_id tenant_id) := by
  refine keeps_bind keeps_read fun w => ?_
  split
  · exact keeps_raise _
  · split
    · exact keeps_pure _
    · exact keeps_bind (writes_scope _ _) fun _ => keeps_pure _

theorem writes_transition (env : Env) (hK : .jobs ∈ K) (job_id : String) (status : JobStatus)
    (tenant_id : Option String) :
    Writes K (transition_job_status env job_id status tenant_id) :=
  writes_saving (keeps_bind (writes_require_job _ _) fun _ =>
    keeps_ite (keeps_pure _) (keeps_ite (keeps_raise _) (writes_persist_job hK _)))

theorem writes_finish (env : Env) (hK : .jobs ∈ K) (job : Job) (status : JobStatus)
    (tenant_id thread_id : String) (evaluation_id : Option String) :
    Writes K (finish env job status tenant_id thread_id evaluation_id) :=
  keeps_bind (writes_transition env hK _ _ _) fun _ => keeps_pure _

theorem writes_thread_of (env : Env) (job : Job) (kind : String) :
    Writes K (thread_of env job kind) :=
  keeps_ite (writes_new_thread_id env kind) (keeps_pure _)

/-! ## The evaluation nodes -/

theorem writes_register_source (env : Env) (hK : .sources ∈ K) {chunk_id : String}
    {source : CitationSource} (hid : source.chunk_id = chunk_id) :
    Writes K (register_citation_source env chunk_id source) := by
  subst hid
  exact writes_saving (writes_update (by simp [hK]) fun s => .source s source)

theorem writes_load_context (env : Env) (state : EvaluationState) :
    Writes K (node_load_context env state) :=
  keeps_bind keeps_read fun _ => keeps_bind (keeps_lift _) fun _ => keeps_pure _

theorem writes_gather_evidence (env : Env) (criteria_defs : List PyVal) :
    Writes K (gather_evidence env criteria_defs) :=
  keeps_foldlM (fun _ _ => keeps_bind writes_draw fun _ => keeps_bind (keeps_lift _) fun _ =>
    keeps_pure _) _ _

theorem writes_register_sources (env : Env) (hK : .sources ∈ K) (state : EvaluationState)
    (criteria_evidence : List (String × List Evidence)) (citations_all_ids : List String) :
    Writes K (register_citation_sources env state criteria_evidence citations_all_ids) := by
  refine keeps_foldlM (fun _ id => keeps_bind keeps_read fun w => ?_) _ _
  split
  · exact keeps_pure _
  · split
    · exact keeps_pure _
    · rename_i ev hev
      have hid := List.find?_some hev
      exact writes_register_source env hK (of_decide_eq_true hid)

theorem writes_retrieve_evidence (env : Env) (hK : .sources ∈ K) (state : EvaluationState) :
    Writes K (node_retrieve_evidence env state) :=
  keeps_bind (writes_gather_evidence env _) fun _ =>
    keeps_bind (writes_register_sources env hK _ _ _) fun _ => keeps_pure _

theorem writes_evaluate_rules (env : Env) (state : EvaluationState) :
    Writes K (node_evaluate_rules env state) := keeps_pure _

theorem writes_score_criteria (env : Env) (state : EvaluationState) (acc : Scoring)
    (criteria : PyDict) : Writes K (score_criteria env state acc criteria) := by
  refine keeps_ite (keeps_pure _) (keeps_bind (keeps_lift _) fun _ => ?_)
  refine keeps_ite (keeps_pure _) (keeps_bind writes_draw fun _ => ?_)
  exact keeps_bind (keeps_lift _) fun _ => keeps_bind keeps_read fun _ => keeps_pure _

theorem writes_score_with_llm (env : Env) (state : EvaluationState) :
    Writes K (node_score_with_llm env state) :=
  keeps_bind (keeps_foldlM (fun _ _ => writes_score_criteria env state _ _) _ _) fun _ =>
    keeps_bind keeps_read fun _ => keeps_pure _

theorem writes_issue_token (env : Env) (hK : .tokens ∈ K) (state : EvaluationState)
    (reasons : List String) : Writes K (issue_resume_token env state reasons) :=
  keeps_ite (keeps_pure _) (keeps_bind (writes_uuid4 env) fun _ =>
    keeps_bind (writes_register_token env hK _ _ _ _) fun _ => keeps_pure _)

theorem writes_quality_gate (env : Env) (hK : .tokens ∈ K) (state : EvaluationState) :
    Writes K (node_quality_gate env state) :=
  keeps_bind keeps_read fun _ => keeps_bind (writes_issue_token env hK _ _) fun _ => keeps_pure _

theorem writes_finalize_report (state : EvaluationState) :
    Writes K (node_finalize_report state) := keeps_bind keeps_read fun _ => keeps_pure _

theorem writes_persist_result (env : Env) (hK : .reports ∈ K) (state : EvaluationState) :
    Writes K (node_persist_result env state) := by
  unfold node_persist_result
  split
  · exact keeps_raise _
  · exact keeps_bind (writes_persist_report env hK _) fun _ => keeps_pure _

theorem writes_nodes (env : Env) (ht : .tokens ∈ K) (hr : .reports ∈ K) (hs : .sources ∈ K)
    (state : EvaluationState) : Writes K (run_evaluation_nodes_sequentially env state) :=
  keeps_bind (writes_load_context env _) fun _ =>
    keeps_bind (writes_retrieve_evidence env hs _) fun _ =>
      keeps_bind (writes_evaluate_rules env _) fun _ =>
        keeps_bind (writes_score_with_llm env _) fun _ =>
          keeps_bind (writes_quality_gate env ht _) fun _ =>
            keeps_bind (writes_finalize_report _) fun _ => writes_persist_result env hr _

/-! ## The graph -/

theorem writes_graph_fault (env : Env) : Writes K (graph_fault env) := by
  refine keeps_bind writes_draw fun n => ?_
  split
  · exact keeps_raise _
  · exact keeps_pure _

theorem writes_save_interrupted (hK : .interrupted ∈ K) (thread_id : String)
    (state : Option EvaluationState) : Writes K (save_interrupted thread_id state) :=
  keeps_write fun w => ⟨.interrupted, by simp [hK], .wait w _⟩

theorem writes_interrupt (env : Env) (hK : .interrupted ∈ K) (id : WorkflowIdentity)
    (resuming : Bool) (state : EvaluationState) : Writes K (interrupt env id resuming state) :=
  keeps_bind (writes_graph_fault env) fun _ =>
    keeps_ite (writes_save_interrupted hK _ _)
      (keeps_bind (writes_save_interrupted hK _ _) fun _ => keeps_raise _)

theorem writes_gate_node (env : Env) (ht : .tokens ∈ K) (hi : .interrupted ∈ K)
    (id : WorkflowIdentity) (resuming : Bool) (state : EvaluationState) :
    Writes K (quality_gate_node env id resuming state) := by
  refine keeps_bind (writes_quality_gate env ht state) fun merged => keeps_ite ?_ ?_
  · exact keeps_bind (writes_checkpoint env _ _ _ _ _ _) fun _ =>
      keeps_bind (writes_checkpoint env _ _ _ _ _ _) fun _ =>
        keeps_bind (writes_interrupt env hi id resuming state) fun _ => keeps_pure _
  · exact keeps_bind (writes_checkpoint env _ _ _ _ _ _) fun _ =>
      keeps_ite (keeps_bind (writes_save_interrupted hi _ _) fun _ => keeps_pure _) (keeps_pure _)

/-- A node other than the gate writes no token. Only the retrieval writes sources. -/
theorem writes_plain_fn (env : Env) (hr : .reports ∈ K) (state : EvaluationState) {node : Node}
    (hs : node = .retrieve_evidence → .sources ∈ K) (hnode : node ≠ .quality_gate) :
    Writes K (node_fn env state node) := by
  cases node with
  | load_context => exact writes_load_context env state
  | retrieve_evidence => exact writes_retrieve_evidence env (hs rfl) state
  | evaluate_rules => exact writes_evaluate_rules env state
  | score_with_llm => exact writes_score_with_llm env state
  | quality_gate => exact absurd rfl hnode
  | finalize_report => exact writes_finalize_report state
  | persist_result => exact writes_persist_result env hr state

theorem writes_node_fn (env : Env) (ht : .tokens ∈ K) (hr : .reports ∈ K)
    (state : EvaluationState) (node : Node) (hs : node = .retrieve_evidence → .sources ∈ K) :
    Writes K (node_fn env state node) := by
  by_cases hnode : node = .quality_gate
  · subst hnode
    exact writes_quality_gate env ht state
  · exact writes_plain_fn env hr state hs hnode

theorem writes_graph_node (env : Env) (ht : .tokens ∈ K) (hr : .reports ∈ K)
    (hi : .interrupted ∈ K) (id : WorkflowIdentity) (resuming : Bool) (state : EvaluationState)
    (node : Node) (hs : node = .retrieve_evidence → .sources ∈ K) :
    Writes K (graph_node env id resuming state node) :=
  keeps_bind (writes_graph_fault env) fun _ =>
    keeps_ite (writes_gate_node env ht hi id resuming state)
      (keeps_bind (writes_checkpoint env _ _ _ _ _ _) fun _ =>
        writes_node_fn env ht hr state node hs)

theorem writes_on_interrupt (env : Env) (e : PyErr) : Writes K (on_interrupt env e) := by
  unfold on_interrupt
  split
  · exact keeps_bind writes_draw fun _ => keeps_ite (keeps_raise _) (keeps_pure _)
  · exact keeps_raise _

theorem writes_run_nodes (env : Env) (ht : .tokens ∈ K) (hr : .reports ∈ K)
    (hi : .interrupted ∈ K) (id : WorkflowIdentity) (resuming : Bool) (nodes : List Node)
    (hs : .retrieve_evidence ∈ nodes → .sources ∈ K) (state : EvaluationState) :
    Writes K (run_nodes env id resuming nodes state) := by
  refine keeps_bind ?_ fun _ => writes_graph_fault env
  induction nodes generalizing state with
  | nil => exact keeps_pure _
  | cons node rest ih =>
    rw [List.foldlM_cons]
    refine keeps_bind (writes_graph_node env ht hr hi id resuming state node ?_) fun state => ?_
    · exact fun hnode => hs (hnode ▸ List.mem_cons_self)
    · exact ih (fun hin => hs (List.mem_cons_of_mem _ hin)) state

theorem writes_invoke (env : Env) (ht : .tokens ∈ K) (hr : .reports ∈ K)
    (hi : .interrupted ∈ K) (hs : .sources ∈ K) (id : WorkflowIdentity) (state : EvaluationState) :
    Writes K (invoke env id state) :=
  keeps_bind (writes_save_interrupted hi _ _) fun _ =>
    keeps_catching (writes_run_nodes env ht hr hi id _ _ (fun _ => hs) _) fun e =>
      writes_on_interrupt env e

theorem retrieves_nothing : .retrieve_evidence ∉ after_interrupt := by decide

/-- The nodes after the interrupt retrieve nothing. -/
theorem writes_after_interrupt (env : Env) (ht : .tokens ∈ K) (hr : .reports ∈ K)
    (hi : .interrupted ∈ K) (id : WorkflowIdentity) (state : EvaluationState) :
    Writes K (catching (run_nodes env id true after_interrupt state) (on_interrupt env)) :=
  keeps_catching (writes_run_nodes env ht hr hi id true after_interrupt
    (fun hin => absurd hin retrieves_nothing) state) fun e => writes_on_interrupt env e

theorem writes_invoke_resume (env : Env) (ht : .tokens ∈ K) (hr : .reports ∈ K)
    (hi : .interrupted ∈ K) (id : WorkflowIdentity) : Writes K (invoke_resume env id) := by
  refine keeps_bind keeps_read fun w => ?_
  split
  · exact writes_graph_fault env
  · exact writes_after_interrupt env ht hr hi id _

/-! ## Parsing -/

theorem writes_replace_chunks (hK : .chunks ∈ K) (tenant_id document_id : String)
    (chunks : List PyDict) : Writes K (replace_chunks tenant_id document_id chunks) := by
  refine keeps_bind keeps_read fun w => ?_
  split
  · exact keeps_pure _
  · exact keeps_ite (keeps_pure _)
      (keeps_bind (writes_update (by simp [hK]) fun s => .chunks s _ _) fun _ => keeps_pure _)

theorem writes_persist_chunks (env : Env) (hK : .chunks ∈ K) (tenant_id document_id : String)
    (chunks : List PyDict) :
    Writes K (persist_document_chunks env tenant_id document_id chunks) :=
  keeps_bind (keeps_lift _) fun _ => writes_replace_chunks hK _ _ _

theorem writes_fail_manifest (env : Env) (hm : .manifests ∈ K) (manifest : ParseManifest)
    (error_code : String) : Writes K (fail_manifest env manifest error_code) :=
  keeps_bind (writes_utcnow env) fun _ => writes_persist_manifest hm _

theorem writes_mineru_call (env : Env) (hK : .chunks ∈ K) (hm : .manifests ∈ K)
    (document_id tenant_id job_id : String) (outcome : MineruOutcome) :
    Writes K (parse_and_persist env document_id tenant_id job_id outcome) := by
  refine keeps_bind keeps_read fun w => ?_
  split
  · exact keeps_pure _
  · refine keeps_bind (writes_utcnow env) fun _ =>
      keeps_bind (writes_persist_manifest hm _) fun _ => ?_
    split
    · exact writes_fail_manifest env hm _ _
    · refine keeps_bind (keeps_ite (keeps_pure _)
        (keeps_bind (writes_replace_chunks hK _ _ _) fun _ => keeps_pure _)) fun _ =>
          keeps_bind (writes_utcnow env) fun _ => keeps_bind (writes_persist_manifest hm _) fun _ =>
            keeps_bind keeps_read fun w => ?_
      split
      · exact keeps_pure _
      · exact writes_fail_manifest env hm _ _

theorem writes_mineru (env : Env) (hK : .chunks ∈ K) (hm : .manifests ∈ K)
    (document_id tenant_id : String) (manifest : Option ParseManifest) :
    Writes K (try_mineru_official_api env document_id tenant_id manifest) := by
  unfold try_mineru_official_api
  split
  · exact keeps_pure _
  · exact keeps_bind writes_draw fun n =>
      keeps_foldlM (fun _ outcome => writes_mineru_call env hK hm _ _ _ outcome) _ _

theorem writes_candidates (env : Env) (attempts : Nat) (last_error : Option String)
    (names : List String) : Writes K (parse_candidates env attempts last_error names) := by
  induction names generalizing last_error with
  | nil => exact keeps_raise _
  | cons name rest ih =>
    unfold parse_candidates
    split
    · exact ih _
    · refine keeps_bind writes_draw fun n => ?_
      split
      · exact keeps_pure _
      · exact ih _
      · exact keeps_raise _

theorem writes_parse_by_route (env : Env) (document_id : String)
    (manifest : Option ParseManifest) : Writes K (parse_by_route env document_id manifest) :=
  keeps_bind (writes_candidates env _ _ _) fun _ => keeps_bind (keeps_lift _) fun _ =>
    keeps_ite (keeps_bind (writes_quiet fun s => .metrics s _) fun _ => keeps_pure _) (keeps_pure _)

theorem writes_parse_file (env : Env) (hK : .chunks ∈ K) (hm : .manifests ∈ K)
    (document : Document) (tenant_id : String) (manifest : Option ParseManifest) :
    Writes K (parse_document_file env document tenant_id manifest) := by
  refine keeps_bind (writes_mineru env hK hm _ _ _) fun _ => keeps_bind writes_draw fun n => ?_
  split
  · exact keeps_pure _
  · exact writes_parse_by_route env _ _

theorem writes_index (env : Env) (hK : .index ∈ K)
    (tenant_id project_id document_id : String) (chunks : List PyDict) :
    Writes K (maybe_index_chunks_to_lightrag env tenant_id project_id document_id chunks) := by
  have hseg : ∀ value name, Writes K (validate_index_segment value name) := fun _ _ =>
    keeps_ite (keeps_pure _) (keeps_raise _)
  have hlog : ∀ failed, Writes K (log_index_write document_id chunks failed) := fun failed =>
    keeps_write fun w => ⟨.index, by simp [hK], .index w _⟩
  refine keeps_ite (keeps_pure _) (keeps_bind ?_ fun _ =>
    keeps_bind (writes_quiet fun s => .metrics s _) fun _ => keeps_bind writes_draw fun n => ?_)
  · exact keeps_bind (hseg _ _) fun _ => keeps_bind (hseg _ _) fun _ => keeps_pure _
  · split
    · exact hlog _
    · exact keeps_bind (hlog _) fun _ => writes_quiet fun s => .metrics s _
    · exact keeps_bind (hlog _) fun _ => keeps_raise _

theorem writes_register_chunks (env : Env) (hK : .sources ∈ K) (document : Document)
    (tenant_id : String) (chunks : List PyDict) :
    Writes K (register_chunks env document tenant_id chunks) := by
  refine keeps_foldlM (fun _ _ => keeps_bind (keeps_lift _) fun _ => ?_) _ _
  exact writes_register_source env hK rfl

theorem writes_persist_counted (hm : .manifests ∈ K) (manifest : Option ParseManifest)
    (parsed persisted : List PyDict) : Writes K (persist_counted manifest parsed persisted) := by
  unfold persist_counted
  split
  · exact keeps_pure _
  · exact writes_persist_manifest hm _

theorem writes_index_document (env : Env) (hc : .chunks ∈ K) (hm : .manifests ∈ K)
    (hi : .index ∈ K) (hs : .sources ∈ K) (document : Document) (tenant_id : String)
    (manifest : Option ParseManifest) :
    Writes K (index_document env document tenant_id manifest) :=
  keeps_bind (writes_parse_file env hc hm document tenant_id manifest) fun _ =>
    keeps_bind (writes_persist_chunks env hc _ _ _) fun _ =>
      keeps_bind (writes_persist_counted hm _ _ _) fun _ =>
        keeps_bind (writes_register_chunks env hs _ _ _) fun _ => writes_index env hi _ _ _ _

/-! ## Pieces of a run -/

theorem writes_change_manifest {change : ParseManifest → Act ParseManifest} (hm : .manifests ∈ K)
    (h : ∀ m, Writes K (change m)) (job_id tenant_id : String) :
    Writes K (change_manifest job_id tenant_id change) := by
  refine keeps_bind keeps_read fun w => ?_
  split
  · exact keeps_pure _
  · exact keeps_bind (h _) fun _ => writes_persist_manifest hm _

theorem writes_change_parse_manifest {change : ParseManifest → Act ParseManifest}
    (hm : .manifests ∈ K) (h : ∀ m, Writes K (change m)) (job : Job) (tenant_id : String) :
    Writes K (change_parse_manifest job tenant_id change) :=
  keeps_ite (writes_change_manifest hm h _ _) (keeps_pure _)

theorem writes_started_manifest (env : Env) (manifest : ParseManifest) :
    Writes K (started_manifest env manifest) := by
  refine keeps_bind ?_ fun _ => keeps_pure _
  unfold first_start
  split
  · exact keeps_pure _
  · exact writes_utcnow env

theorem writes_start_parse (env : Env) (hm : .manifests ∈ K) (job : Job) (tenant_id : String) :
    Writes K (start_parse env job tenant_id) :=
  keeps_ite (keeps_bind (writes_change_manifest hm (writes_started_manifest env) _ _) fun _ =>
    writes_quiet fun s => .metrics s _) (keeps_pure _)

theorem writes_get_document (document_id tenant_id : String) :
    Writes K (get_document_for_tenant document_id tenant_id) := by
  refine keeps_bind keeps_read fun w => ?_
  split
  · exact keeps_pure _
  · exact keeps_bind (writes_scope _ _) fun _ => keeps_pure _

theorem writes_mark_document (hK : .documents ∈ K) (job : Job) (tenant_id status : String) :
    Writes K (mark_document job tenant_id status) := by
  refine keeps_bind (writes_get_document _ _) fun document => ?_
  split
  · exact keeps_pure _
  · exact keeps_bind (writes_persist_document hK _) fun _ => keeps_pure _

theorem writes_fail_parse (env : Env) (hK : .documents ∈ K) (hm : .manifests ∈ K) (job : Job)
    (tenant_id error_code : String) : Writes K (fail_parse env job tenant_id error_code) :=
  keeps_ite (keeps_bind (writes_change_manifest hm (fun _ =>
    keeps_bind (writes_utcnow env) fun _ => keeps_pure _) _ _) fun _ =>
      keeps_bind (writes_mark_document hK _ _ _) fun _ => keeps_pure _) (keeps_pure _)

theorem writes_list_chunks (document_id tenant_id : String) :
    Writes K (list_document_chunks_for_tenant document_id tenant_id) := by
  refine keeps_bind (writes_get_document _ _) fun document => ?_
  split
  · exact keeps_raise _
  · exact keeps_bind keeps_read fun _ => keeps_pure _

theorem writes_mark_parsed (env : Env) (hK : .documents ∈ K) (hm : .manifests ∈ K) (job : Job)
    (tenant_id : String) :
    Writes K (mark_parsed env job tenant_id) :=
  keeps_bind (writes_change_manifest hm (fun _ => keeps_bind (writes_utcnow env) fun _ =>
    keeps_pure _) _ _) fun _ => keeps_bind keeps_read fun _ =>
      keeps_bind (writes_mark_document hK _ _ _) fun _ => keeps_pure _

theorem writes_succeed_parse (env : Env) (hd : .documents ∈ K) (hm : .manifests ∈ K)
    (hc : .chunks ∈ K) (hi : .index ∈ K) (hs : .sources ∈ K) (job : Job) (tenant_id : String) :
    Writes K (succeed_parse env job tenant_id) := by
  refine keeps_ite ?_ (keeps_pure _)
  refine keeps_bind (writes_mark_parsed env hd hm _ _) fun (document, manifest) => ?_
  cases document
  · exact keeps_pure _
  · exact keeps_bind (writes_list_chunks _ _) fun _ =>
      keeps_ite (writes_index_document env hc hm hi hs _ _ _) (keeps_pure _)

theorem writes_evaluation_checkpoint (env : Env) (job : Job) (tenant_id : String)
    (result : RunResult) : Writes K (evaluation_checkpoint env job tenant_id result) :=
  keeps_ite (writes_checkpoint env _ _ _ _ _ _)
    (keeps_ite (writes_checkpoint env _ _ _ _ _ _) (keeps_pure _))

/-! ## Creators -/

theorem writes_parse_job (env : Env) (hj : .jobs ∈ K) (hd : .documents ∈ K) (hm : .manifests ∈ K)
    (ho : .outbox ∈ K) (document_id trace_id tenant_id : String) :
    Writes K (create_parse_job env document_id trace_id tenant_id) := by
  refine writes_saving (keeps_bind (writes_get_document _ _) fun document => ?_)
  split
  · exact keeps_raise _
  · refine keeps_bind (writes_uuid4 env) fun hex => keeps_bind (writes_new_thread_id env _)
      fun thread_id => keeps_bind (writes_persist_job hj _) fun job => ?_
    refine keeps_bind (keeps_bind (writes_uuid4 env) fun _ => keeps_pure _) fun manifest =>
      keeps_bind (writes_persist_manifest hm _) fun _ => ?_
    exact keeps_bind (writes_persist_document hd _) fun _ =>
      keeps_bind (writes_outbox env ho _ _ _ _ _) fun _ => keeps_pure _

theorem writes_upload (env : Env) (hj : .jobs ∈ K) (hd : .documents ∈ K) (hm : .manifests ∈ K)
    (hc : .chunks ∈ K) (ho : .outbox ∈ K) (payload : UploadPayload) (has_file : Bool) :
    Writes K (create_upload_job env payload has_file) := by
  have hput : ∀ document_id, Writes K (put_upload env payload.tenant_id document_id has_file) :=
    fun _ => keeps_ite (keeps_bind (writes_put_held_object env _ _ _) fun _ => keeps_pure _)
      (keeps_pure _)
  refine writes_saving (keeps_bind keeps_read fun w => ?_)
  split
  · exact keeps_pure _
  · refine keeps_bind (writes_uuid4 env) fun hex => keeps_bind (hput _) fun uri =>
      keeps_bind (writes_persist_document hd _) fun _ => ?_
    exact keeps_bind (writes_persist_chunks env hc _ _ _) fun _ =>
      keeps_bind (writes_parse_job env hj hd hm ho _ _ _) fun _ => keeps_pure _

theorem writes_evaluation_job (env : Env) (ht : .tokens ∈ K) (hr : .reports ∈ K)
    (hs : .sources ∈ K) (hj : .jobs ∈ K) (ho : .outbox ∈ K) (payload : EvaluationPayload) :
    Writes K (create_evaluation_job env payload) :=
  writes_saving (keeps_bind (writes_uuid4 env) fun _ => keeps_bind (writes_uuid4 env) fun _ =>
    keeps_bind (writes_new_thread_id env _) fun _ => keeps_bind (writes_nodes env ht hr hs _)
      fun _ => keeps_bind (writes_persist_job hj _) fun _ =>
        keeps_bind (writes_outbox env ho _ _ _ _ _) fun _ => keeps_pure _)

theorem writes_resume_thread (env : Env) (report : Option EvaluationReport) :
    Writes K (resume_thread_id env report) :=
  keeps_ite (writes_new_thread_id env _) (keeps_pure _)

theorem writes_clear_review (env : Env) (hr : .reports ∈ K) (report : Option EvaluationReport) :
    Writes K (clear_review env report) := by
  unfold clear_review
  split
  · exact keeps_pure _
  · exact writes_persist_report env hr _

theorem writes_resume_job (env : Env) (hr : .reports ∈ K) (hj : .jobs ∈ K) (ho : .outbox ∈ K)
    (evaluation_id : String) (payload : ResumePayload) :
    Writes K (create_resume_job env evaluation_id payload) :=
  writes_saving (keeps_bind (writes_uuid4 env) fun _ => keeps_bind keeps_read fun _ =>
    keeps_bind (writes_resume_thread env _) fun _ => keeps_bind (writes_persist_job hj _) fun _ =>
      keeps_bind (writes_clear_review env hr _) fun _ => keeps_bind (writes_audit env _ _ _)
        fun _ => keeps_bind (writes_outbox env ho _ _ _ _ _) fun _ => keeps_pure _)

theorem writes_resume (env : Env) (ht : .tokens ∈ K) (hr : .reports ∈ K) (hj : .jobs ∈ K)
    (ho : .outbox ∈ K) (evaluation_id resume_token : String) (payload : ResumePayload) :
    Writes K (execute_resume env evaluation_id resume_token payload) :=
  keeps_bind (writes_consume_token env ht _ _ _) fun _ =>
    keeps_ite (writes_resume_job env hr hj ho _ _) (keeps_raise _)

/-! ## The dead letter queue and the cancel -/

theorem writes_cancel (env : Env) (hj : .jobs ∈ K) (job_id tenant_id : String) :
    Writes K (cancel_job env job_id tenant_id) :=
  writes_saving (keeps_bind (writes_require_job _ _) fun _ =>
    keeps_ite (keeps_raise _) (writes_update (by simp [hj]) fun s => .job s _))

theorem writes_requeue (env : Env) (hj : .jobs ∈ K) (hq : .dlq ∈ K)
    (dlq_id trace_id tenant_id : String) :
    Writes K (requeue_dlq_item env dlq_id trace_id tenant_id) := by
  refine writes_saving (keeps_bind keeps_read fun w => ?_)
  split
  · exact keeps_raise _
  · refine keeps_ite (keeps_raise _) ?_
    refine keeps_bind (writes_uuid4 env) fun hex => keeps_bind (writes_new_thread_id env _)
      fun thread_id => keeps_bind (writes_persist_job hj _) fun job => ?_
    exact keeps_bind (writes_persist_dlq_item hq _) fun _ =>
      keeps_bind (writes_audit env _ _ _) fun _ => keeps_pure _

theorem writes_discard (env : Env) (hq : .dlq ∈ K)
    (dlq_id reason reviewer_id reviewer_id_2 tenant_id trace_id : String) :
    Writes K (discard_dlq_item env dlq_id reason reviewer_id reviewer_id_2 tenant_id trace_id) := by
  refine writes_saving (keeps_bind keeps_read fun w => ?_)
  split
  · exact keeps_raise _
  · refine keeps_ite (keeps_raise _) (keeps_ite (keeps_raise _) ?_)
    exact keeps_bind (writes_persist_dlq_item hq _) fun _ => writes_audit env _ _ _

/-! ## The run of a job -/

theorem writes_begin (env : Env) (hK : .jobs ∈ K) (hm : .manifests ∈ K)
    (job_id tenant_id : String) :
    Writes K (begin_run env job_id tenant_id) := by
  refine keeps_bind (writes_require_job _ _) fun job => keeps_bind ?_ fun job => ?_
  · exact keeps_ite (keeps_bind (writes_new_thread_id env _) fun _ =>
      writes_persist_job hK _) (keeps_pure _)
  · refine keeps_bind ?_ fun job => keeps_bind (writes_start_parse env hm _ _) fun _ =>
      keeps_bind (keeps_ite (keeps_pure _) (keeps_raise _)) fun _ => keeps_pure _
    exact keeps_ite (keeps_bind (writes_transition env hK _ _ _) fun _ =>
      keeps_bind (writes_checkpoint env _ _ _ _ _ _) fun _ => keeps_pure _) (keeps_pure _)

theorem writes_fail (env : Env) (hj : .jobs ∈ K) (hd : .documents ∈ K) (hm : .manifests ∈ K)
    (hq : .dlq ∈ K) (job : Job) (tenant_id : String) (force_error_code : Option String) :
    Writes K (fail_job env job tenant_id force_error_code) := by
  have hmove : ∀ status, Writes K
      (transition_job_status env job.job_id status (some tenant_id)) := fun status =>
    writes_transition env hj _ _ _
  refine keeps_bind ?_ fun (item, failed) => keeps_bind (writes_fail_parse env hd hm _ _ _)
    fun _ => keeps_bind (writes_checkpoint env _ _ _ _ _ _) fun _ => keeps_pure _
  refine keeps_bind (hmove _) fun _ => keeps_bind (hmove _) fun _ =>
    keeps_bind (writes_seed_dlq_item env hq _ _ _ _) fun item =>
      keeps_bind (hmove _) fun failed => ?_
  exact keeps_bind (writes_utcnow env) fun _ =>
    keeps_bind (writes_persist_job hj _) fun _ => keeps_pure _

theorem writes_retry (env : Env) (hj : .jobs ∈ K) (hm : .manifests ∈ K) (job : Job)
    (tenant_id error_code : String) :
    Writes K (retry_job env job tenant_id error_code) := by
  refine keeps_bind (writes_transition env hj _ _ _) fun retried => ?_
  refine keeps_bind (writes_utcnow env) fun now => keeps_bind (writes_utcnow env) fun at_ => ?_
  refine keeps_bind (writes_persist_job hj _) fun retried => ?_
  exact keeps_bind (writes_change_parse_manifest hm (fun _ => keeps_pure _) _ _) fun _ =>
    keeps_bind (writes_checkpoint env _ _ _ _ _ _) fun _ => keeps_pure _

theorem writes_succeed (env : Env) (hj : .jobs ∈ K) (hd : .documents ∈ K) (hm : .manifests ∈ K)
    (hc : .chunks ∈ K) (hi : .index ∈ K) (hs : .sources ∈ K) (job : Job) (tenant_id : String) :
    Writes K (succeed_job env job tenant_id) := by
  refine keeps_bind (keeps_bind (writes_transition env hj _ _ _) fun _ =>
    writes_persist_job hj _) fun succeeded => ?_
  exact keeps_bind (writes_succeed_parse env hd hm hc hi hs _ _) fun _ =>
    keeps_bind (writes_checkpoint env _ _ _ _ _ _) fun _ => keeps_pure _

theorem writes_evaluation_run (env : Env) (hj : .jobs ∈ K) (ht : .tokens ∈ K) (hr : .reports ∈ K)
    (hi : .interrupted ∈ K) (hs : .sources ∈ K) (job : Job) (tenant_id : String) :
    Writes K (run_evaluation_job env job tenant_id) := by
  have hcompat : ∀ status thread_id nodes, Writes K (append_checkpoints env thread_id job tenant_id
      nodes >>= fun _ => finish env job status tenant_id thread_id (some job.resource_id)) :=
    fun _ _ _ => keeps_bind (writes_checkpoints env _ _ _ _) fun _ => writes_finish env hj _ _ _ _ _
  refine keeps_bind ?_ fun _ => keeps_bind (writes_evaluation_checkpoint env _ _ _) fun _ =>
    keeps_pure _
  refine keeps_bind (writes_thread_of env job _) fun thread_id => keeps_bind keeps_read fun w =>
    keeps_bind (keeps_lift _) fun mode => ?_
  cases mode with
  | compat => exact keeps_ite (hcompat _ _ _) (hcompat _ _ _)
  | langgraph =>
    refine keeps_catching ?_ fun e => keeps_ite (keeps_raise _) (hcompat _ _ _)
    refine keeps_bind (writes_thread_of env job _) fun thread_id => keeps_catching ?_ fun e => ?_
    · exact keeps_bind (writes_invoke env ht hr hi hs _ _) fun _ => writes_finish env hj _ _ _ _ _
    · cases e with
      | graph_interrupt => exact writes_finish env hj _ _ _ _ _
      | _ => exact keeps_raise _

theorem writes_resume_run (env : Env) (hj : .jobs ∈ K) (ht : .tokens ∈ K) (hr : .reports ∈ K)
    (hi : .interrupted ∈ K) (job : Job) (tenant_id : String) :
    Writes K (run_resume_job env job tenant_id) := by
  have hcompat : ∀ thread_id, Writes K (run_resume_compat env job tenant_id thread_id) :=
    fun _ => keeps_bind (writes_checkpoints env _ _ _ _) fun _ => writes_finish env hj _ _ _ _ _
  refine keeps_bind ?_ fun _ => keeps_bind (writes_checkpoint env _ _ _ _ _ _) fun _ =>
    keeps_pure _
  refine keeps_bind (writes_thread_of env job _) fun thread_id =>
    keeps_bind (keeps_lift _) fun mode => ?_
  cases mode with
  | compat => exact hcompat _
  | langgraph =>
    refine keeps_catching ?_ fun e => keeps_ite (keeps_raise _) (hcompat _)
    refine keeps_bind (writes_thread_of env job _) fun thread_id => keeps_bind ?_ fun _ =>
      writes_finish env hj _ _ _ _ _
    refine keeps_catching (writes_invoke_resume env ht hr hi _) fun e => ?_
    cases e <;> exact keeps_raise _

/-- All kinds but the events: a run announces nothing. -/
def runKinds : List Kind :=
  [.jobs, .documents, .manifests, .chunks, .reports, .tokens, .dlq, .interrupted, .index, .sources]

theorem writes_run (env : Env) (job_id tenant_id : String) (flags : RunFlags) :
    Writes runKinds (run_job_once env job_id tenant_id flags) := by
  refine writes_saving (keeps_bind (writes_begin env (by decide) (by decide) _ _) fun job => ?_)
  have hfail : ∀ error_code, Writes runKinds (fail_job env job tenant_id error_code) :=
    fun _ => writes_fail env (by decide) (by decide) (by decide) (by decide) _ _ _
  refine keeps_ite (hfail _) (keeps_ite (keeps_ite ?_ (hfail _)) ?_)
  · exact writes_retry env (by decide) (by decide) _ _ _
  · unfold run_by_type
    split
    · exact writes_evaluation_run env (by decide) (by decide) (by decide) (by decide) (by decide)
        _ _
    · exact writes_resume_run env (by decide) (by decide) (by decide) (by decide) _ _
    · exact writes_succeed env (by decide) (by decide) (by decide) (by decide) (by decide)
        (by decide)
        _ _

/-! ## Each operation -/

/-- The kinds of writes that an operation makes. -/
def kinds_of : Op → List Kind
  | .upload .. => [.documents, .manifests, .chunks, .jobs, .outbox]
  | .create_parse_job .. => [.documents, .manifests, .jobs, .outbox]
  | .create_evaluation_job .. => [.tokens, .reports, .sources, .jobs, .outbox]
  | .consume_resume_token .. => [.tokens]
  | .create_resume_job .. => [.reports, .jobs, .outbox]
  | .resume .. => [.tokens, .reports, .jobs, .outbox]
  | .transition_job_status .. | .cancel_job .. => [.jobs]
  | .seed_dlq_item .. | .discard_dlq_item .. => [.dlq]
  | .requeue_dlq_item .. => [.jobs, .dlq]
  | .run_job_once .. | .execute_rollback .. => runKinds

theorem writes_op (env : Env) (op : Op) : Writes (kinds_of op) (op.act env) := by
  have hquiet : ∀ {α : Type} {K : List Kind} {m : Act α}, Writes K m → Writes K (quiet m) :=
    fun hm => keeps_bind hm fun _ => keeps_pure _
  cases op with
  | upload payload has_file =>
    exact hquiet (writes_upload env (by simp [kinds_of]) (by simp [kinds_of]) (by simp [kinds_of])
      (by simp [kinds_of]) (by simp [kinds_of]) _ _)
  | create_parse_job document_id trace_id tenant_id =>
    exact hquiet (writes_parse_job env (by simp [kinds_of]) (by simp [kinds_of])
      (by simp [kinds_of]) (by simp [kinds_of]) _ _ _)
  | create_evaluation_job payload =>
    exact hquiet (writes_evaluation_job env (by simp [kinds_of]) (by simp [kinds_of])
      (by simp [kinds_of]) (by simp [kinds_of]) (by simp [kinds_of]) _)
  | consume_resume_token evaluation_id resume_token tenant_id =>
    exact hquiet (writes_consume_token env (by simp [kinds_of]) _ _ _)
  | create_resume_job evaluation_id payload =>
    exact hquiet (writes_resume_job env (by simp [kinds_of]) (by simp [kinds_of])
      (by simp [kinds_of]) _ _)
  | resume evaluation_id resume_token payload =>
    exact hquiet (writes_resume env (by simp [kinds_of]) (by simp [kinds_of]) (by simp [kinds_of])
      (by simp [kinds_of]) _ _ _)
  | run_job_once job_id tenant_id flags => exact hquiet (writes_run env _ _ _)
  | transition_job_status job_id new_status tenant_id =>
    exact hquiet (writes_transition env (by simp [kinds_of]) _ _ _)
  | cancel_job job_id tenant_id => exact writes_cancel env (by simp [kinds_of]) _ _
  | seed_dlq_item job_id error_class error_code tenant_id =>
    exact hquiet (writes_seed_dlq_item env (by simp [kinds_of]) _ _ _ _)
  | requeue_dlq_item dlq_id trace_id tenant_id =>
    exact hquiet (writes_requeue env (by simp [kinds_of]) (by simp [kinds_of]) _ _ _)
  | discard_dlq_item dlq_id reason reviewer_id reviewer_id_2 tenant_id trace_id =>
    exact writes_discard env (by simp [kinds_of]) _ _ _ _ _ _
  | execute_rollback release_id tenant_id trace_id trigger_gate =>
    refine writes_saving ?_
    cases trigger_gate with
    | none => exact keeps_pure _
    | some gate =>
      refine keeps_bind (writes_audit env _ _ _) fun _ => keeps_bind (writes_uuid4 env) fun _ =>
        keeps_bind (writes_new_thread_id env _) fun _ => ?_
      exact keeps_bind (writes_persist_job (by simp [kinds_of, runKinds]) _) fun _ =>
        keeps_bind (writes_run env _ _ _) fun _ => writes_audit env _ _ _

end bid_evaluation.writes
