-- Two reviewers for what cannot be undone: the discard of a dead letter item
-- and the release of a legal hold. A record that says so names them, and the
-- audit log has them too.
import BidEvaluation.ItemLaws
import BidEvaluation.ReportOwners
import Mathlib.Data.List.DropRight

open dict_lib stepwise lockstep bid_evaluation.values bid_evaluation.core bid_evaluation.store_ops
  bid_evaluation.store_workflow bid_evaluation.store_admin bid_evaluation.store_parse
  bid_evaluation.store_eval bid_evaluation.langgraph_runtime bid_evaluation.job_run
  bid_evaluation.operations bid_evaluation.frames bid_evaluation.op_steps bid_evaluation.endings
  bid_evaluation.agreement_steps bid_evaluation.resume_laws bid_evaluation.item_laws

namespace bid_evaluation.dual_review

/-! ## What a record says -/

theorem strip_strip (s : String) : strip (strip s) = strip s := by
  have hrev : ∀ l : List Char, (l.reverse.dropWhile is_space).reverse = l.rdropWhile is_space :=
    fun l => rfl
  have hstart : ∀ l : List Char,
      (((l.dropWhile is_space).rdropWhile is_space).dropWhile is_space) =
        (l.dropWhile is_space).rdropWhile is_space := by
    intro l
    rw [List.dropWhile_eq_self_iff]
    intro hlong hspace
    have hpart := List.rdropWhile_prefix is_space (l := l.dropWhile is_space)
    have hlong' := Nat.lt_of_lt_of_le hlong hpart.length_le
    have hfirst := List.dropWhile_get_zero_not is_space l hlong'
    rw [List.get_eq_getElem, ← hpart.getElem hlong] at hfirst
    exact hfirst hspace
  unfold strip
  rw [String.toList_ofList, hrev, hrev, hstart, List.rdropWhile_idempotent]

/-- A reason, and two reviewers who are not the same. -/
structure Signed (reason first second : Option String) (a b : String) : Prop where
  reason : ∃ text, reason = some text ∧ strip text ≠ ""
  first : first = some a
  second : second = some b
  named : strip a ≠ "" ∧ strip b ≠ ""
  different : strip a ≠ strip b

theorem signed_of_approved {reason reviewer_id reviewer_id_2 text : String}
    (h : Approved reason reviewer_id reviewer_id_2) (htext : strip text = strip reason) :
    Signed (some text) (some (strip reviewer_id)) (some (strip reviewer_id_2)) (strip reviewer_id)
      (strip reviewer_id_2) := by
  refine ⟨⟨text, rfl, fun hblank => h.reason (htext ▸ hblank)⟩, rfl, rfl, ?_, ?_⟩
  · rw [strip_strip, strip_strip]
    exact ⟨h.first, h.second⟩
  · rw [strip_strip, strip_strip]
    exact h.different

/-! ## Items -/

section items

variable {env : Env} {w w' : World}

/-- Each discarded item is signed, and the audit log says who signed. -/
def ItemsReviewed (w : World) : Prop := ∀ item ∈ w.store.dlq_items.values,
  item.status = "discarded" → ∃ a b, Signed item.discard_reason item.reviewer_id item.reviewer_id_2 a b ∧
    ∃ log ∈ w.store.audit_logs, DiscardLogged log item.tenant_id item.dlq_id a b

/-- No item becomes discarded, and the audit log only gets longer. -/
structure NoneDiscarded (w w' : World) : Prop where
  items : ∀ id item, w'.store.dlq_items.get? id = some item → item.status = "discarded" →
    w.store.dlq_items.get? id = some item
  logs : w.store.audit_logs <+: w'.store.audit_logs

theorem NoneDiscarded.refl (w : World) : NoneDiscarded w w :=
  ⟨fun _ _ h _ => h, List.prefix_refl _⟩

theorem NoneDiscarded.trans {w'' : World} (h : NoneDiscarded w w') (h' : NoneDiscarded w' w'') :
    NoneDiscarded w w'' :=
  ⟨fun id item hitem hstatus => h.items id item (h'.items id item hitem hstatus) hstatus,
    h.logs.trans h'.logs⟩

theorem ItemsReviewed.kept (h : ItemsReviewed w) (hkept : NoneDiscarded w w') : ItemsReviewed w' := by
  intro item hitem hstatus
  rw [Table.mem_values_iff] at hitem
  have hbefore := (Table.mem_values_iff _ _).2 (hkept.items _ item hitem hstatus)
  obtain ⟨a, b, hsigned, log, hlog, hlogged⟩ := h item hbefore hstatus
  exact ⟨a, b, hsigned, log, hkept.logs.subset hlog, hlogged⟩

/-- A put of an item that is not discarded. -/
theorem none_discarded_put {item : DlqItem} (hstatus : item.status ≠ "discarded")
    (hitems : w'.store.dlq_items = w.store.dlq_items.put item)
    (hlogs : w.store.audit_logs <+: w'.store.audit_logs) : NoneDiscarded w w' := by
  refine ⟨fun id found hfound hdiscarded => ?_, hlogs⟩
  rw [hitems, Table.get?_put] at hfound
  split at hfound
  · cases hfound
    exact absurd hdiscarded hstatus
  · exact hfound

theorem ItemsReviewed.discarded (h : ItemsReviewed w)
    {dlq_id reason reviewer_id reviewer_id_2 tenant_id : String} {r : Except PyErr Unit}
    (hends : DiscardEnds w dlq_id reason reviewer_id reviewer_id_2 tenant_id r w') :
    ItemsReviewed w' := by
  cases hends with
  | refused e hno => exact h
  | discarded hitem happroved hitems hjobs hlogs hlog =>
    obtain ⟨-, hid, htenant⟩ := found_item hitem
    intro item' hitem' hstatus
    rw [Table.mem_values_iff, hitems, Table.get?_put] at hitem'
    split at hitem'
    · cases hitem'
      refine ⟨_, _, signed_of_approved happroved rfl, _, hlogs ▸ List.mem_concat_self, ?_⟩
      subst hid htenant
      exact hlog
    · obtain ⟨a, b, hsigned, log, hin, hlogged⟩ := h item' ((Table.mem_values_iff _ _).2 hitem') hstatus
      exact ⟨a, b, hsigned, log, hlogs ▸ List.mem_append_left _ hin, hlogged⟩

/-! ## The operations that discard nothing -/

abbrev DiscardsNone {α : Type} (m : Act α) : Prop := Keeps NoneDiscarded m

/-- The parts of the world without the items. -/
def besideItems : List Part :=
  [.jobs, .documents, .chunks, .reports, .tokens, .outbox, .interrupted, .index]

theorem discards_none {α : Type} {m : Act α} (h : Touches besideItems m) : DiscardsNone m := by
  refine h.mono fun w w' honly => ?_
  have hitems : w'.store.dlq_items = w.store.dlq_items := honly.frame.same .dlq (by decide)
  exact ⟨fun id item hitem _ => hitems ▸ hitem, honly.frame.same .audit (by decide)⟩

theorem discards_none_saving {α : Type} {m : Act α} (h : DiscardsNone m) :
    DiscardsNone (saving env m) :=
  keeps_bind h fun _ => keeps_bind (discards_none (touches_save_state env)) fun _ => keeps_pure _

theorem discards_none_item {item : DlqItem} (h : item.status ≠ "discarded") :
    DiscardsNone (persist_dlq_item item) :=
  keeps_bind (keeps_write fun _ => none_discarded_put h rfl (List.prefix_refl _)) fun _ => keeps_pure _

theorem discards_none_seed (env : Env) (job_id error_class error_code tenant_id : String) :
    DiscardsNone (seed_dlq_item env job_id error_class error_code tenant_id) :=
  discards_none_saving (keeps_bind (discards_none (touches_uuid4 env)) fun _ =>
    discards_none_item (by decide : ¬ "open" = "discarded"))

theorem discards_none_requeue (env : Env) (dlq_id trace_id tenant_id : String) :
    DiscardsNone (requeue_dlq_item env dlq_id trace_id tenant_id) := by
  refine discards_none_saving (keeps_bind keeps_read fun w => ?_)
  split
  · exact keeps_raise _
  · refine keeps_ite (keeps_raise _) ?_
    refine keeps_bind (discards_none (touches_uuid4 env)) fun hex =>
      keeps_bind (discards_none (touches_new_thread_id env _)) fun thread_id =>
        keeps_bind (discards_none (touches_persist_job (by decide) _)) fun job => ?_
    refine keeps_bind (discards_none_item (by decide : ¬ "requeued" = "discarded")) fun _ => ?_
    exact keeps_bind (discards_none (touches_audit env _ _ _)) fun _ => keeps_pure _

theorem touches_parse_job (env : Env) (document_id trace_id tenant_id : String) :
    Touches besideItems (create_parse_job env document_id trace_id tenant_id) := by
  refine touches_saving (keeps_bind (touches_get_document _ _) fun document => ?_)
  split
  · exact keeps_raise _
  · refine keeps_bind (touches_uuid4 env) fun hex => keeps_bind (touches_new_thread_id env _)
      fun thread_id => keeps_bind (touches_persist_job (by decide) _) fun job => ?_
    refine keeps_bind (touches_new_manifest env _ _ _) fun manifest =>
      keeps_bind (touches_persist_manifest _) fun _ => ?_
    exact keeps_bind (touches_persist_document (by decide) (by decide) _) fun _ =>
      keeps_bind (touches_outbox env (by decide) _ _ _ _ _) fun _ => keeps_pure _

theorem touches_upload (env : Env) (payload : UploadPayload) (has_file : Bool) :
    Touches besideItems (create_upload_job env payload has_file) := by
  refine touches_saving (keeps_bind keeps_read fun w => ?_)
  split
  · exact keeps_pure _
  · refine keeps_bind (touches_uuid4 env) fun hex => keeps_bind (touches_put_upload env _ _ _)
      fun uri => keeps_bind (touches_persist_document (by decide) (by decide) _) fun _ => ?_
    exact keeps_bind (touches_persist_chunks env (by decide) _ _ _) fun _ =>
      keeps_bind (touches_parse_job env _ _ _) fun _ => keeps_pure _

theorem touches_evaluation (env : Env) (payload : EvaluationPayload) :
    Touches besideItems (create_evaluation_job env payload) := by
  refine touches_saving (keeps_bind (touches_uuid4 env) fun evaluation_hex =>
    keeps_bind (touches_uuid4 env) fun job_hex => keeps_bind (touches_new_thread_id env _)
      fun thread_id => ?_)
  refine keeps_bind (touches_nodes env (by decide) (by decide) _) fun _ =>
    keeps_bind (touches_persist_job (by decide) _) fun _ => ?_
  exact keeps_bind (touches_outbox env (by decide) _ _ _ _ _) fun _ => keeps_pure _

theorem touches_resume (env : Env) (evaluation_id resume_token : String) (payload : ResumePayload) :
    Touches besideItems (execute_resume env evaluation_id resume_token payload) := by
  refine keeps_bind (touches_consume_token env (by decide) _ _ _) fun consumed => ?_
  exact keeps_ite ((touches_create_resume_job env _ _).widen (by decide)) (keeps_raise _)

theorem touches_cancel (env : Env) (job_id tenant_id : String) :
    Touches besideItems (cancel_job env job_id tenant_id) := by
  refine touches_saving (keeps_bind (touches_require_job _ _) fun job => ?_)
  refine keeps_ite (keeps_raise _) (touches_update fun w p hp => ?_)
  cases p <;> first | rfl | exact absurd (by decide) hp

/-! ## The run of a job -/

theorem touches_begin (env : Env) (job_id tenant_id : String) :
    Touches besideItems (begin_run env job_id tenant_id) := by
  refine keeps_bind (touches_require_job _ _) fun job => keeps_bind ?_ fun job => ?_
  · exact keeps_ite (keeps_bind (touches_new_thread_id env _) fun _ =>
      touches_persist_job (by decide) _) (keeps_pure _)
  · refine keeps_bind ?_ fun job => keeps_bind (touches_start_parse env _ _) fun _ =>
      keeps_bind (keeps_ite (keeps_pure _) (keeps_raise _)) fun _ => keeps_pure _
    exact keeps_ite (keeps_bind (touches_transition env (by decide) _ _ _) fun _ =>
      keeps_bind (touches_checkpoint env _ _ _ _ _ _) fun _ => keeps_pure _) (keeps_pure _)

theorem discards_none_fail (env : Env) (job : Job) (tenant_id : String)
    (force_error_code : Option String) :
    DiscardsNone (fail_job env job tenant_id force_error_code) := by
  have hmove : ∀ status, DiscardsNone
      (transition_job_status env job.job_id status (some tenant_id)) := fun status =>
    discards_none (touches_transition env (by decide) _ _ _)
  refine keeps_bind ?_ fun (item, failed) => keeps_bind (discards_none
    (touches_fail_parse env (by decide) (by decide) _ _ _)) fun _ =>
      keeps_bind (discards_none (touches_checkpoint env _ _ _ _ _ _)) fun _ => keeps_pure _
  refine keeps_bind (hmove _) fun _ => keeps_bind (hmove _) fun _ =>
    keeps_bind (discards_none_seed env _ _ _ _) fun item => keeps_bind (hmove _) fun failed => ?_
  exact keeps_bind (discards_none (touches_utcnow env)) fun _ =>
    keeps_bind (discards_none (touches_persist_job (by decide) _)) fun _ => keeps_pure _

theorem touches_retry_run (env : Env) (job : Job) (tenant_id error_code : String) :
    Touches besideItems (retry_job env job tenant_id error_code) := by
  refine keeps_bind (touches_transition env (by decide) _ _ _) fun retried => ?_
  refine keeps_bind (touches_utcnow env) fun now => keeps_bind (touches_utcnow env) fun at_ => ?_
  refine keeps_bind (touches_persist_job (by decide) _) fun retried => ?_
  exact keeps_bind (touches_change_parse_manifest (fun _ => keeps_pure _) _ _) fun _ =>
    keeps_bind (touches_checkpoint env _ _ _ _ _ _) fun _ => keeps_pure _

theorem touches_evaluation_run (env : Env) (job : Job) (tenant_id : String) :
    Touches besideItems (run_evaluation_job env job tenant_id) := by
  have hfinish : ∀ status thread_id, Touches besideItems
      (finish env job status tenant_id thread_id (some job.resource_id)) := fun _ _ =>
    touches_finish env (by decide) _ _ _ _ _
  have hcompat : ∀ thread_id status nodes, Touches besideItems
      (append_checkpoints env thread_id job tenant_id nodes >>= fun _ =>
        finish env job status tenant_id thread_id (some job.resource_id)) :=
    fun _ _ _ => keeps_bind (touches_checkpoints env _ _ _ _) fun _ => hfinish _ _
  have hgraph : Touches besideItems (run_evaluation_graph env job tenant_id) := by
    refine keeps_bind (touches_thread_of env _ _) fun thread_id => keeps_catching ?_ fun e => ?_
    · exact keeps_bind (touches_invoke env (by decide) (by decide) (by decide) _ _) fun _ =>
        hfinish _ _
    · cases e with
      | graph_interrupt => exact hfinish _ _
      | api e => exact keeps_raise _
      | raised class_name message => exact keeps_raise _
  have hworkflow : Touches besideItems (run_evaluation_workflow env job tenant_id) := by
    refine keeps_bind (touches_thread_of env _ _) fun thread_id => keeps_bind keeps_read fun w =>
      keeps_bind (keeps_lift _) fun mode => ?_
    cases mode with
    | compat => exact keeps_ite (hcompat _ _ _) (hcompat _ _ _)
    | langgraph =>
      exact keeps_catching hgraph fun e => keeps_ite (keeps_raise _) (hcompat _ _ _)
  exact keeps_bind hworkflow fun result =>
    keeps_bind (touches_evaluation_checkpoint env _ _ _) fun _ => keeps_pure _

theorem touches_resume_compat (env : Env) (job : Job) (tenant_id thread_id : String) :
    Touches besideItems (run_resume_compat env job tenant_id thread_id) := by
  unfold run_resume_compat
  generalize resume_checkpoints = nodes
  exact (touches_compat_end env job _ _ _ _ nodes).widen (by decide)

theorem touches_resume_graph (env : Env) (job : Job) (tenant_id : String) :
    Touches besideItems (run_resume_graph env job tenant_id) := by
  unfold run_resume_graph
  refine keeps_bind (touches_thread_of env _ _) fun thread_id => keeps_bind ?_ fun _ =>
    touches_finish env (by decide) _ _ _ _ _
  refine keeps_catching (touches_invoke_resume env (by decide) (by decide) (by decide) _) fun e => ?_
  cases e with
  | graph_interrupt => exact keeps_raise _
  | api e => exact keeps_raise _
  | raised class_name message => exact keeps_raise _

theorem touches_resume_run (env : Env) (job : Job) (tenant_id : String) :
    Touches besideItems (run_resume_job env job tenant_id) := by
  unfold run_resume_job run_resume_workflow
  refine keeps_bind ?_ fun result => keeps_bind (touches_checkpoint env _ _ _ _ _ _) fun _ =>
    keeps_pure _
  refine keeps_bind (touches_thread_of env _ _) fun thread_id =>
    keeps_bind (keeps_lift _) fun mode => ?_
  have hcompat := touches_resume_compat env job tenant_id thread_id
  cases mode with
  | compat => exact hcompat
  | langgraph =>
    refine keeps_catching (touches_resume_graph env job tenant_id) fun e => ?_
    split
    · exact keeps_raise _
    · exact hcompat

theorem touches_success (env : Env) (job : Job) (tenant_id : String) :
    Touches besideItems (succeed_job env job tenant_id) := by
  refine keeps_bind (keeps_bind (touches_transition env (by decide) _ _ _) fun _ =>
    touches_persist_job (by decide) _) fun succeeded => ?_
  exact keeps_bind (touches_succeed_parse env (by decide) (by decide) (by decide) _ _) fun _ =>
    keeps_bind (touches_checkpoint env _ _ _ _ _ _) fun _ => keeps_pure _

theorem discards_none_run (env : Env) (job_id tenant_id : String) (flags : RunFlags) :
    DiscardsNone (run_job_once env job_id tenant_id flags) := by
  refine discards_none_saving (keeps_bind (discards_none (touches_begin env _ _)) fun job => ?_)
  refine keeps_ite (discards_none_fail env _ _ _) (keeps_ite ?_ ?_)
  · exact keeps_ite (discards_none (touches_retry_run env _ _ _)) (discards_none_fail env _ _ _)
  · unfold run_by_type
    split
    · exact discards_none (touches_evaluation_run env _ _)
    · exact discards_none (touches_resume_run env _ _)
    · exact discards_none (touches_success env _ _)

theorem discards_none_rollback (env : Env) (release_id tenant_id trace_id : String)
    (trigger_gate : Option String) :
    DiscardsNone (execute_rollback env release_id tenant_id trace_id trigger_gate) := by
  refine discards_none_saving ?_
  cases trigger_gate with
  | none => exact keeps_pure _
  | some gate =>
    refine keeps_bind (discards_none (touches_audit env _ _ _)) fun _ =>
      keeps_bind (discards_none (touches_uuid4 env)) fun hex =>
        keeps_bind (discards_none (touches_new_thread_id env _)) fun thread_id => ?_
    refine keeps_bind (discards_none (touches_persist_job (by decide) _)) fun job =>
      keeps_bind (discards_none_run env _ _ _) fun _ => ?_
    exact discards_none (touches_audit env _ _ _)

theorem quiet_keeps {α : Type} {R : World → World → Prop} {m : Act α} (h : Keeps R m) :
    Keeps R (operations.quiet m) := keeps_bind h fun _ => keeps_pure _

/-- Every operation keeps the discarded items signed. -/
theorem items_reviewed_step (h : ItemsReviewed w) (op : operations.Op) :
    ItemsReviewed (operations.perform env w op) := by
  have hnone : ∀ {m : Act Unit}, DiscardsNone m → ItemsReviewed (m.final w) := fun hm =>
    h.kept (Keeps.final hm NoneDiscarded.refl (fun _ _ _ => NoneDiscarded.trans) w)
  cases op with
  | upload payload has_file => exact hnone (quiet_keeps (discards_none (touches_upload env _ _)))
  | create_parse_job document_id trace_id tenant_id =>
    exact hnone (quiet_keeps (discards_none (touches_parse_job env _ _ _)))
  | create_evaluation_job payload =>
    exact hnone (quiet_keeps (discards_none (touches_evaluation env _)))
  | consume_resume_token evaluation_id resume_token tenant_id =>
    exact hnone (quiet_keeps (discards_none (touches_consume_token env (by decide) _ _ _)))
  | create_resume_job evaluation_id payload =>
    exact hnone (quiet_keeps (discards_none
      ((touches_create_resume_job env _ _).widen (by decide))))
  | resume evaluation_id resume_token payload =>
    exact hnone (quiet_keeps (discards_none (touches_resume env _ _ _)))
  | run_job_once job_id tenant_id flags => exact hnone (quiet_keeps (discards_none_run env _ _ _))
  | transition_job_status job_id new_status tenant_id =>
    exact hnone (quiet_keeps (discards_none (touches_transition env (by decide) _ _ _)))
  | cancel_job job_id tenant_id => exact hnone (discards_none (touches_cancel env _ _))
  | seed_dlq_item job_id error_class error_code tenant_id =>
    exact hnone (quiet_keeps (discards_none_seed env _ _ _ _))
  | requeue_dlq_item dlq_id trace_id tenant_id =>
    exact hnone (quiet_keeps (discards_none_requeue env _ _ _))
  | discard_dlq_item dlq_id reason reviewer_id reviewer_id_2 tenant_id trace_id =>
    exact h.discarded (discard_dlq_item.ends env _ _ _ _ _ trace_id w).2
  | execute_rollback release_id tenant_id trace_id trigger_gate =>
    exact hnone (discards_none_rollback env _ _ _ _)

theorem items_reviewed (env : Env) (ops : List operations.Op) :
    ItemsReviewed (operations.after env World.start ops) := by
  have hreached := reached_after env ops
  generalize operations.after env World.start ops = w at hreached
  induction hreached with
  | start => exact fun item hitem => by simp [World.start, Store.empty, Table.mem_values_iff] at hitem
  | step h op hop ih => exact items_reviewed_step ih op

end items

end bid_evaluation.dual_review
