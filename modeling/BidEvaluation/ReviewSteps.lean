-- The report and the resume token of an evaluation: what the gate, the
-- graph and the resume write to them. A run of the nodes writes only to
-- its own evaluation.
import BidEvaluation.Endings

open dict_lib stepwise bid_evaluation.values bid_evaluation.core bid_evaluation.store_workflow
  bid_evaluation.store_admin bid_evaluation.evaluation_nodes bid_evaluation.langgraph_runtime
  bid_evaluation.store_eval bid_evaluation.job_run bid_evaluation.operations
  bid_evaluation.frames bid_evaluation.job_steps bid_evaluation.run_steps
  bid_evaluation.op_steps bid_evaluation.endings

namespace bid_evaluation.review_steps

variable {env : Env} {w w' : World}

/-! ## Reports and tokens -/

/-- The stored report of an evaluation waits for a reviewer. -/
def Flagged (w : World) (evaluation_id : String) : Prop :=
  is_flagged (w.store.evaluation_reports.get? evaluation_id) = true

/-- The registered token is not used, and the report has the same token. -/
def TokenOf (w : World) (report : EvaluationReport) : Prop :=
  ∃ interrupt record, report.interrupt = some interrupt ∧
    w.store.resume_tokens.get? report.evaluation_id = some record ∧ record.used = false ∧
    record.resume_token = interrupt.resume_token ∧ record.tenant_id = report.tenant_id

/-- A flagged report of the evaluation has the registered token. -/
def Agrees (w : World) (evaluation_id : String) : Prop :=
  ∀ report, w.store.evaluation_reports.get? evaluation_id = some report →
    report.needs_human_review = true → TokenOf w report

/-- Only the report and the token of one evaluation changed, and only a
state of that evaluation is new at an interrupt. -/
structure OnlyOf (evaluation_id : String) (w w' : World) : Prop where
  reports : ∀ id, id ≠ evaluation_id →
    w'.store.evaluation_reports.get? id = w.store.evaluation_reports.get? id
  tokens : ∀ id, id ≠ evaluation_id →
    w'.store.resume_tokens.get? id = w.store.resume_tokens.get? id
  waiting : ∀ thread_id state, w'.interrupted thread_id = some state →
    w.interrupted thread_id = some state ∨ state.evaluation_id = evaluation_id

theorem OnlyOf.trans {e : String} {a b c : World} (h : OnlyOf e a b) (h' : OnlyOf e b c) :
    OnlyOf e a c :=
  ⟨fun id hid => (h'.reports id hid).trans (h.reports id hid),
    fun id hid => (h'.tokens id hid).trans (h.tokens id hid),
    fun thread_id state hs => (h'.waiting thread_id state hs).elim (h.waiting thread_id state) .inr⟩

theorem OnlyOf.of_frame {K : List Part} {e : String} (hf : Frame K w w') (hr : .reports ∉ K)
    (ht : .tokens ∉ K) (hi : .interrupted ∉ K) : OnlyOf e w w' := by
  have hreports : w'.store.evaluation_reports = w.store.evaluation_reports := hf.same .reports hr
  have htokens : w'.store.resume_tokens = w.store.resume_tokens := hf.same .tokens ht
  have hwaiting : w'.interrupted = w.interrupted := hf.same .interrupted hi
  exact ⟨fun id _ => by rw [hreports], fun id _ => by rw [htokens],
    fun thread_id state hs => .inl (hwaiting ▸ hs)⟩

/-! ## The report is stored -/

theorem archive.spec (report : EvaluationReport) (w : World) :
    Meets AnyStep (archive_report_to_object_storage env report) w (fun r w' => Frame [] w w' ∧
      ∀ archived, r = .ok archived → ∃ uri, archived = { report with report_uri := uri }) := by
  unfold archive_report_to_object_storage
  rw [meets_ite]
  refine ⟨fun _ => ?_, fun _ => ?_⟩
  · rw [meets_pure]
    refine ⟨Frame.refl w, ?_⟩
    rintro _ ⟨⟩
    exact ⟨report.report_uri, rfl⟩
  · refine past_parts (K := []) (touches_put_held_object env _ _ _) (fun uri t hf => ?_)
      (fun e t hf => ⟨hf, by rintro _ ⟨⟩⟩)
    rw [meets_pure]
    refine ⟨hf, ?_⟩
    rintro _ ⟨⟩
    exact ⟨some uri, rfl⟩

/-- The report is stored under its own id, with any address. A program that
raised has stored nothing. -/
def Stores (report : EvaluationReport) (w w' : World) : Except PyErr α → Prop
  | .ok _ => ∃ uri, w'.store.evaluation_reports =
      w.store.evaluation_reports.put { report with report_uri := uri }
  | .error _ => w'.store.evaluation_reports = w.store.evaluation_reports

theorem persist_evaluation_report.spec (env : Env) (report : EvaluationReport) (w : World) :
    Meets AnyStep (persist_evaluation_report env report) w
      (fun r w' => Frame [.reports] w w' ∧ Stores report w w' r) := by
  unfold persist_evaluation_report
  refine (archive.spec report w).bind ?_ ?_
  · rintro archived t ⟨hf, harchived⟩
    obtain ⟨uri, rfl⟩ := harchived archived rfl
    have hreports : t.store.evaluation_reports = w.store.evaluation_reports :=
      hf.same .reports (by simp)
    simp only [update, meets_write, any_step, true_and]
    refine ⟨(hf.mono (by simp)).trans ⟨fun p hp => ?_, Nat.le_refl _⟩, uri, ?_⟩
    · cases p <;> first | rfl | exact absurd List.mem_cons_self hp
    · rw [← hreports]
  · rintro e t ⟨hf, -⟩
    exact ⟨hf.mono (by simp), hf.same .reports (by simp)⟩

/-! ## The gate -/

/-- The token that the gate registered for the state. -/
def Issued (w : World) (state : EvaluationState) : Prop :=
  ∃ interrupt record, state.interrupt_payload = some interrupt ∧
    w.store.resume_tokens.get? state.evaluation_id = some record ∧ record.used = false ∧
    record.resume_token = interrupt.resume_token ∧ record.tenant_id = state.tenant_id

theorem Issued.frame {K : List Part} {state : EvaluationState} (h : Issued w state)
    (hf : Frame K w w') (hK : .tokens ∉ K) : Issued w' state := by
  have hsame : w'.store.resume_tokens = w.store.resume_tokens := hf.same .tokens hK
  obtain ⟨interrupt, record, hinterrupt, hrecord, hrest⟩ := h
  exact ⟨interrupt, record, hinterrupt, hsame ▸ hrecord, hrest⟩

/-- A token for the evaluation is registered. -/
structure Registered (w w' : World) (evaluation_id resume_token tenant_id : String) : Prop where
  frame : Frame [.tokens] w w'
  only : OnlyOf evaluation_id w w'
  token : ∃ record, w'.store.resume_tokens.get? evaluation_id = some record ∧
    record.used = false ∧ record.resume_token = resume_token ∧ record.tenant_id = tenant_id

theorem register_resume_token.spec (evaluation_id resume_token tenant_id : String)
    (reasons : List String) (w : World) :
    Meets AnyStep (register_resume_token env evaluation_id resume_token tenant_id reasons) w
      (fun r w' => r = .ok () ∧ Registered w w' evaluation_id resume_token tenant_id) := by
  unfold register_resume_token
  refine any_saving ?_ ?_
  · simp only [utcnow, draw, update, meets_bind, meets_read, meets_write, then_ok, meets_pure,
      any_step, true_and]
    refine ⟨⟨fun p hp => ?_, Nat.le_succ _⟩, ⟨fun id _ => rfl, fun id hid => ?_,
      fun _ _ h => .inl h⟩, _, Dict.get?_set_self _ _ _, rfl, rfl, rfl⟩
    · cases p <;> first | rfl | exact absurd List.mem_cons_self hp
    · exact Dict.get?_set_of_ne _ _ hid
  · rintro _ t t' ⟨hr, hf, honly, record, hrecord, hrest⟩ hsave
    have hsame : t'.store.resume_tokens = t.store.resume_tokens := hsave.same .tokens (by simp)
    exact ⟨hr, hf.trans (hsave.mono (by simp)),
      honly.trans (.of_frame hsave (by simp) (by simp) (by simp)), record, hsame ▸ hrecord, hrest⟩

/-- What the gate leaves: the state of its case with the decision, and a new
token when the decision is a review. -/
structure Gated (w w' : World) (state merged : EvaluationState) : Prop where
  evaluation_id : merged.evaluation_id = state.evaluation_id
  tenant_id : merged.tenant_id = state.tenant_id
  frame : Frame [.tokens] w w'
  only : OnlyOf state.evaluation_id w w'
  issued : merged.needs_human_review = true → Issued w' merged
  passed : merged.needs_human_review = false → Frame [] w w'

theorem node_quality_gate.spec (state : EvaluationState) (w : World) :
    Meets AnyStep (node_quality_gate env state) w
      (fun r w' => ∃ merged, r = .ok merged ∧ Gated w w' state merged) := by
  unfold node_quality_gate issue_resume_token
  rw [meets_bind, meets_read, then_ok]
  dsimp only
  generalize hitl_reasons env state (gate_numbers env w.store state) = reasons
  rw [meets_bind, meets_ite]
  refine ⟨fun hpass => ?_, fun hflag => ?_⟩
  · rw [meets_pure, then_ok, meets_pure]
    refine ⟨_, rfl, rfl, rfl, Frame.refl w,
      ⟨fun _ _ => rfl, fun _ _ => rfl, fun _ _ h => .inl h⟩, fun h => ?_, fun _ => Frame.refl w⟩
    simp [hpass] at h
  · refine past_return (K := []) (touches_uuid4 env) (returns_uuid4 env) fun hex t hf => ?_
    refine (register_resume_token.spec _ _ _ _ t).bind ?_ (fun e t' h => by cases h.1)
    rintro _ t' ⟨-, hregistered⟩
    obtain ⟨record, hrecord, hused, htoken, htenant⟩ := hregistered.token
    rw [meets_pure, then_ok, meets_pure]
    refine ⟨_, rfl, rfl, rfl, (hf.mono (by simp)).trans hregistered.frame,
      (OnlyOf.of_frame hf (by simp) (by simp) (by simp)).trans hregistered.only,
      fun _ => ⟨_, record, rfl, hrecord, hused, htoken, htenant⟩, fun h => ?_⟩
    simp [hflag] at h

/-! ## The report of a decision -/

/-- The evaluation is ruled on: its report is as it was, or a new one,
which is flagged only if `may_flag` and then has the registered token. -/
structure Ruled (evaluation_id : String) (may_flag : Prop) (w w' : World) : Prop where
  only : OnlyOf evaluation_id w w'
  report : w'.store.evaluation_reports.get? evaluation_id =
      w.store.evaluation_reports.get? evaluation_id ∨
    ∃ report, w'.store.evaluation_reports.get? evaluation_id = some report ∧
      (report.needs_human_review = true → may_flag ∧ TokenOf w' report)

theorem Ruled.mono {e : String} {may_flag may_flag' : Prop} (h : Ruled e may_flag w w')
    (himp : may_flag → may_flag') : Ruled e may_flag' w w' := by
  refine ⟨h.only, h.report.imp_right ?_⟩
  rintro ⟨report, hreport, hflag⟩
  exact ⟨report, hreport, fun hneeds => ⟨himp (hflag hneeds).1, (hflag hneeds).2⟩⟩

theorem Ruled.of_only {K : List Part} {e : String} {may_flag : Prop} (hf : Frame K w w')
    (hr : .reports ∉ K) (h : OnlyOf e w w') : Ruled e may_flag w w' := by
  have hreports : w'.store.evaluation_reports = w.store.evaluation_reports := hf.same .reports hr
  exact ⟨h, .inl (by rw [hreports])⟩

theorem Ruled.from {K : List Part} {e : String} {may_flag : Prop} {t : World} (hf : Frame K w t)
    (hr : .reports ∉ K) (h : OnlyOf e w t) (h' : Ruled e may_flag t w') :
    Ruled e may_flag w w' := by
  have hreports : t.store.evaluation_reports = w.store.evaluation_reports := hf.same .reports hr
  refine ⟨h.trans h'.only, ?_⟩
  rw [← hreports]
  exact h'.report

theorem Ruled.later {K : List Part} {e : String} {may_flag : Prop} {t : World}
    (h : Ruled e may_flag w t) (hf : Frame K t w') (hr : .reports ∉ K) (ht : .tokens ∉ K)
    (hi : .interrupted ∉ K) : Ruled e may_flag w w' := by
  have hreports : w'.store.evaluation_reports = t.store.evaluation_reports := hf.same .reports hr
  have htokens : w'.store.resume_tokens = t.store.resume_tokens := hf.same .tokens ht
  refine ⟨h.only.trans (.of_frame hf hr ht hi), ?_⟩
  rcases h.report with hsame | ⟨report, hreport, hflag⟩
  · exact .inl (by rw [hreports, hsame])
  · refine .inr ⟨report, by rw [hreports, hreport], fun hneeds => ⟨(hflag hneeds).1, ?_⟩⟩
    obtain ⟨interrupt, record, hinterrupt, hrecord, hrest⟩ := (hflag hneeds).2
    exact ⟨interrupt, record, hinterrupt, htokens ▸ hrecord, hrest⟩

/-- A report was stored under its id, with any address in the object storage. -/
theorem ruled_of_put {report : EvaluationReport} {may_flag : Prop} {uri : Option String}
    (hf : Frame [.reports] w w')
    (hflag : report.needs_human_review = true → may_flag ∧ TokenOf w report)
    (hreports : w'.store.evaluation_reports =
      w.store.evaluation_reports.put { report with report_uri := uri }) :
    Ruled report.evaluation_id may_flag w w' := by
  have htokens : w'.store.resume_tokens = w.store.resume_tokens := hf.same .tokens (by simp)
  have hstored : w'.store.evaluation_reports.get? report.evaluation_id =
      some { report with report_uri := uri } := by
    rw [hreports]
    exact w.store.evaluation_reports.get?_put_self { report with report_uri := uri }
  have hwaiting : w'.interrupted = w.interrupted := hf.same .interrupted (by simp)
  refine ⟨⟨fun id hid => ?_, fun id _ => by rw [htokens],
    fun thread_id state hs => .inl (hwaiting ▸ hs)⟩, .inr ⟨_, hstored, fun hneeds => ?_⟩⟩
  · rw [hreports, Table.get?_put, if_neg (show ¬ id = report.evaluation_id from hid)]
  · obtain ⟨hmay, interrupt, record, hinterrupt, hrecord, hrest⟩ := hflag hneeds
    exact ⟨hmay, interrupt, record, hinterrupt, htokens ▸ hrecord, hrest⟩

/-- The same for a report that may have been stored. -/
theorem ruled_of_stores {report : EvaluationReport} {may_flag : Prop} {r : Except PyErr α}
    (hf : Frame [.reports] w w')
    (hflag : report.needs_human_review = true → may_flag ∧ TokenOf w report)
    (h : Stores report w w' r) : Ruled report.evaluation_id may_flag w w' := by
  cases r with
  | ok a =>
    obtain ⟨uri, hreports⟩ := h
    exact ruled_of_put hf hflag hreports
  | error e =>
    have hreports : w'.store.evaluation_reports = w.store.evaluation_reports := h
    have htokens : w'.store.resume_tokens = w.store.resume_tokens := hf.same .tokens (by simp)
    have hwaiting : w'.interrupted = w.interrupted := hf.same .interrupted (by simp)
    exact ⟨⟨fun id _ => by rw [hreports], fun id _ => by rw [htokens],
      fun thread_id state hs => .inl (hwaiting ▸ hs)⟩, .inl (by rw [hreports])⟩

/-- A report is stored. If it is flagged, then its token is registered. -/
theorem node_persist_result.spec {state : EvaluationState} {report : EvaluationReport}
    {may_flag : Prop} (hstate : state.report = some report)
    (hflag : report.needs_human_review = true → may_flag ∧ TokenOf w report) :
    Meets AnyStep (node_persist_result env state) w
      (fun _ w' => Ruled report.evaluation_id may_flag w w') := by
  unfold node_persist_result
  rw [hstate]
  refine (persist_evaluation_report.spec env report w).bind (fun u t h => ?_)
    (fun e t h => ruled_of_stores h.1 hflag h.2)
  rw [meets_pure]
  exact ruled_of_stores h.1 hflag h.2

/-! ## The nodes -/

/-- The two states are about the same case. -/
structure SameCase (state state' : EvaluationState) : Prop where
  evaluation_id : state'.evaluation_id = state.evaluation_id
  tenant_id : state'.tenant_id = state.tenant_id

theorem SameCase.trans {a b c : EvaluationState} (h : SameCase a b) (h' : SameCase b c) :
    SameCase a c :=
  ⟨h'.evaluation_id.trans h.evaluation_id, h'.tenant_id.trans h.tenant_id⟩

/-- The program returns a state of the same case, and writes no named part. -/
def KeepsCase (state : EvaluationState) (m : Act EvaluationState) : Prop :=
  ∀ w, Meets AnyStep m w (fun r w' => Frame [] w w' ∧ ∀ s, r = .ok s → SameCase state s)

theorem keeps_case_pure {state s : EvaluationState} (h : SameCase state s) :
    KeepsCase state (pure s) := by
  intro w
  rw [meets_pure]
  refine ⟨Frame.refl w, ?_⟩
  rintro _ ⟨⟩
  exact h

theorem keeps_case_bind {state : EvaluationState} {m : Act α} {f : α → Act EvaluationState}
    (h : Touches [] m) (hf : ∀ a, KeepsCase state (f a)) : KeepsCase state (m >>= f) := by
  intro w
  refine past_parts h (fun a t hframe => ?_) (fun e t hframe => ⟨hframe, by rintro _ ⟨⟩⟩)
  exact (hf a t).post fun r t' h' => ⟨hframe.trans h'.1, h'.2⟩

theorem load_context_case (state : EvaluationState) :
    KeepsCase state (node_load_context env state) :=
  keeps_case_bind keeps_read fun _ => keeps_case_bind (keeps_lift _) fun _ =>
    keeps_case_pure ⟨rfl, rfl⟩

theorem retrieve_evidence_case (state : EvaluationState) :
    KeepsCase state (node_retrieve_evidence env state) :=
  keeps_case_bind (touches_gather_evidence env _) fun _ =>
    keeps_case_bind (touches_register_sources env _ _ _) fun _ => keeps_case_pure ⟨rfl, rfl⟩

theorem evaluate_rules_case (state : EvaluationState) :
    KeepsCase state (node_evaluate_rules env state) := keeps_case_pure ⟨rfl, rfl⟩

theorem score_with_llm_case (state : EvaluationState) :
    KeepsCase state (node_score_with_llm env state) :=
  keeps_case_bind (keeps_foldlM (fun _ _ => touches_score_criteria env state _ _) _ _) fun _ =>
    keeps_case_bind keeps_read fun _ => keeps_case_pure ⟨rfl, rfl⟩

/-- The report that the state makes, which has the registered token. -/
theorem report_of_issued {state : EvaluationState} {s : Store}
    (h : state.needs_human_review = true → Issued w state) :
    (report_of s state).needs_human_review = true → TokenOf w (report_of s state) := h

/-- `run_evaluation_nodes_sequentially` rules on the evaluation. -/
theorem run_evaluation_nodes.spec (state : EvaluationState) (w : World) :
    Meets AnyStep (run_evaluation_nodes_sequentially env state) w
      (fun _ w' => Ruled state.evaluation_id True w w') := by
  have hquiet : ∀ {t : World}, Frame [] w t → Ruled state.evaluation_id True w t := fun hf =>
    .of_only hf (by simp) (.of_frame hf (by simp) (by simp) (by simp))
  unfold run_evaluation_nodes_sequentially
  refine (load_context_case state w).bind ?_ (fun e t h => hquiet h.1)
  rintro s₁ t₁ ⟨hf₁, hcase₁⟩
  refine (retrieve_evidence_case s₁ t₁).bind ?_ (fun e t h => hquiet (hf₁.trans h.1))
  rintro s₂ t₂ ⟨hf₂, hcase₂⟩
  refine (evaluate_rules_case s₂ t₂).bind ?_ (fun e t h => hquiet ((hf₁.trans hf₂).trans h.1))
  rintro s₃ t₃ ⟨hf₃, hcase₃⟩
  have hf := (hf₁.trans hf₂).trans hf₃
  refine (score_with_llm_case s₃ t₃).bind ?_ (fun e t h => hquiet (hf.trans h.1))
  rintro s₄ t₄ ⟨hf₄, hcase₄⟩
  have hf := hf.trans hf₄
  have hcase : SameCase state s₄ :=
    (((hcase₁ s₁ rfl).trans (hcase₂ s₂ rfl)).trans (hcase₃ s₃ rfl)).trans (hcase₄ s₄ rfl)
  refine (node_quality_gate.spec s₄ t₄).bind ?_ (by rintro e t ⟨_, he, -⟩; cases he)
  rintro merged t₅ ⟨_, ⟨⟩, hgated⟩
  simp only [node_finalize_report, meets_bind, meets_read, meets_pure, then_ok]
  have honly : OnlyOf state.evaluation_id w t₅ :=
    (OnlyOf.of_frame hf (by simp) (by simp) (by simp)).trans (hcase.evaluation_id ▸ hgated.only)
  have hid : merged.evaluation_id = state.evaluation_id :=
    hgated.evaluation_id.trans hcase.evaluation_id
  refine (node_persist_result.spec rfl fun hneeds =>
    ⟨trivial, report_of_issued hgated.issued hneeds⟩).post fun r t₆ hruled => ?_
  have hruled : Ruled state.evaluation_id True t₅ t₆ := hid ▸ hruled
  exact .from ((hf.mono (by simp)).trans hgated.frame) (by simp) honly hruled

/-! ## The graph -/

theorem save_interrupted.spec (evaluation_id thread_id : String)
    (state : Option EvaluationState)
    (hstate : ∀ s, state = some s → s.evaluation_id = evaluation_id) (w : World) :
    Meets AnyStep (save_interrupted thread_id state) w (fun r w' => r = .ok () ∧
      Frame [.interrupted] w w' ∧ OnlyOf evaluation_id w w') := by
  simp only [save_interrupted, meets_write, any_step, true_and]
  refine ⟨⟨fun p hp => ?_, Nat.le_refl _⟩, ⟨fun _ _ => rfl, fun _ _ => rfl, fun thread s hs => ?_⟩⟩
  · cases p <;> first | rfl | exact absurd List.mem_cons_self hp
  · by_cases heq : thread = thread_id
    · rw [heq] at hs
      exact .inr (hstate s ((Function.update_self thread_id state w.interrupted).symm.trans hs))
    · exact .inl ((Function.update_of_ne heq state w.interrupted).symm.trans hs)

/-- An interrupt lets a run go on only if the run is a resume. -/
theorem interrupt.spec (id : WorkflowIdentity) (resuming : Bool) (state : EvaluationState)
    (w : World) :
    Meets AnyStep (interrupt env id resuming state) w (fun r w' => Frame [.interrupted] w w' ∧
      OnlyOf state.evaluation_id w w' ∧ ∀ u, r = .ok u → resuming = true) := by
  unfold interrupt
  refine past_parts (K := []) (touches_graph_fault env) (fun _ t hf => ?_) (fun e t hf => ?_)
  · have honly : OnlyOf state.evaluation_id w t := .of_frame hf (by simp) (by simp) (by simp)
    rw [meets_ite]
    refine ⟨fun hresuming => ?_, fun _ => ?_⟩
    · refine (save_interrupted.spec state.evaluation_id id.thread_id none (by simp) t).post ?_
      rintro _ t' ⟨-, hf', honly'⟩
      exact ⟨(hf.mono (by simp)).trans hf', honly.trans honly', fun _ _ => hresuming⟩
    · refine (save_interrupted.spec state.evaluation_id id.thread_id (some state)
        (by rintro s ⟨⟩; rfl) t).bind ?_ (fun e t' h => by cases h.1)
      rintro _ t' ⟨-, hf', honly'⟩
      rw [meets_raise]
      exact ⟨(hf.mono (by simp)).trans hf', honly.trans honly', by rintro _ ⟨⟩⟩
  · exact ⟨hf.mono (by simp), .of_frame hf (by simp) (by simp) (by simp), by rintro _ ⟨⟩⟩

/-- What a pass through the gate of the graph leaves. A first pass never
goes on with a flagged state. -/
structure Passed (resuming : Bool) (state : EvaluationState) (w w' : World)
    (r : Except PyErr EvaluationState) : Prop where
  frame : Frame [.tokens, .interrupted] w w'
  only : OnlyOf state.evaluation_id w w'
  case : ∀ merged, r = .ok merged → SameCase state merged
  issued : ∀ merged, r = .ok merged → merged.needs_human_review = true →
    resuming = true ∧ Issued w' merged

theorem Passed.of_error {resuming : Bool} {state : EvaluationState} {e : PyErr}
    (hf : Frame [.tokens, .interrupted] w w') (honly : OnlyOf state.evaluation_id w w') :
    Passed resuming state w w' (.error e) :=
  ⟨hf, honly, by rintro _ ⟨⟩, by rintro _ ⟨⟩⟩

theorem quality_gate_node.spec (id : WorkflowIdentity) (resuming : Bool) (state : EvaluationState)
    (w : World) :
    Meets AnyStep (quality_gate_node env id resuming state) w
      (fun r w' => Passed resuming state w w' r) := by
  unfold quality_gate_node
  refine (node_quality_gate.spec state w).bind ?_ (by rintro e t ⟨_, he, -⟩; cases he)
  rintro merged t₁ ⟨_, ⟨⟩, hgated⟩
  have hf₁ : Frame [.tokens, .interrupted] w t₁ := hgated.frame.mono (by simp)
  have hcase : SameCase state merged := ⟨hgated.evaluation_id, hgated.tenant_id⟩
  rw [meets_ite]
  refine ⟨fun hflag => ?_, fun hpass => ?_⟩
  · refine past_return (K := []) (touches_checkpoint env _ _ _ _ _ _)
      (returns_checkpoint env _ _ _ _ _ _) fun _ t₂ hf₂ => ?_
    refine past_return (K := []) (touches_checkpoint env _ _ _ _ _ _)
      (returns_checkpoint env _ _ _ _ _ _) fun _ t₃ hf₃ => ?_
    have hf := hf₂.trans hf₃
    have honly : OnlyOf state.evaluation_id w t₃ :=
      hgated.only.trans (.of_frame hf (by simp) (by simp) (by simp))
    refine (interrupt.spec id resuming state t₃).bind ?_ ?_
    · rintro _ t₄ ⟨hf₄, honly₄, hresuming⟩
      rw [meets_pure]
      refine ⟨(hf₁.trans (hf.mono (by simp))).trans (hf₄.mono (by simp)), honly.trans honly₄,
        ?_, ?_⟩
      · rintro _ ⟨⟩
        exact hcase
      · rintro _ ⟨⟩ _
        exact ⟨hresuming _ rfl, ((hgated.issued hflag).frame hf (by simp)).frame hf₄ (by simp)⟩
    · rintro e t₄ ⟨hf₄, honly₄, -⟩
      exact .of_error ((hf₁.trans (hf.mono (by simp))).trans (hf₄.mono (by simp)))
        (honly.trans honly₄)
  · have hleft : ∀ t, Frame [.interrupted] t₁ t → OnlyOf state.evaluation_id t₁ t →
        Passed resuming state w t (.ok merged) := by
      intro t hf honly
      refine ⟨hf₁.trans (hf.mono (by simp)), hgated.only.trans honly, ?_, ?_⟩
      · rintro _ ⟨⟩
        exact hcase
      · rintro _ ⟨⟩ hflag
        exact absurd hflag hpass
    refine past_return (K := []) (touches_checkpoint env _ _ _ _ _ _)
      (returns_checkpoint env _ _ _ _ _ _) fun _ t₂ hf₂ => ?_
    have honly₂ : OnlyOf state.evaluation_id t₁ t₂ := .of_frame hf₂ (by simp) (by simp) (by simp)
    rw [meets_ite]
    refine ⟨fun _ => ?_, fun _ => ?_⟩
    · refine (save_interrupted.spec state.evaluation_id id.thread_id none (by simp) t₂).bind ?_
        (fun e t h => by cases h.1)
      rintro _ t₃ ⟨-, hf₃, honly₃⟩
      rw [meets_pure]
      exact hleft t₃ ((hf₂.mono (by simp)).trans hf₃) (honly₂.trans honly₃)
    · rw [meets_pure]
      exact hleft t₂ (hf₂.mono (by simp)) honly₂

/-- A node before the gate keeps the case. -/
theorem graph_node_case (id : WorkflowIdentity) (resuming : Bool) (state : EvaluationState)
    (node : Node) (hnode : node ≠ .quality_gate) (h : KeepsCase state (node_fn env state node)) :
    KeepsCase state (graph_node env id resuming state node) := by
  unfold graph_node
  refine keeps_case_bind (touches_graph_fault env) fun _ => ?_
  rw [if_neg hnode]
  exact keeps_case_bind (touches_checkpoint env _ _ _ _ _ _) fun _ => h

/-- The gate of the graph, with the fault that may come before it. -/
theorem graph_gate.spec (id : WorkflowIdentity) (resuming : Bool) (state : EvaluationState)
    (w : World) :
    Meets AnyStep (graph_node env id resuming state .quality_gate) w
      (fun r w' => Passed resuming state w w' r) := by
  unfold graph_node
  refine past_parts (K := []) (touches_graph_fault env) (fun _ t hf => ?_) (fun e t hf => ?_)
  · have honly : OnlyOf state.evaluation_id w t := .of_frame hf (by simp) (by simp) (by simp)
    rw [if_pos rfl]
    exact (quality_gate_node.spec id resuming state t).post fun r t' h =>
      ⟨(hf.mono (by simp)).trans h.frame, honly.trans h.only, h.case, h.issued⟩
  · exact .of_error (hf.mono (by simp)) (.of_frame hf (by simp) (by simp) (by simp))

/-- The node after the gate makes the report of the state. -/
theorem graph_finalize.spec (id : WorkflowIdentity) (resuming : Bool) (state : EvaluationState)
    (w : World) :
    Meets AnyStep (graph_node env id resuming state .finalize_report) w
      (fun r w' => Frame [] w w' ∧
        ∀ s, r = .ok s → ∃ store, s.report = some (report_of store state)) := by
  unfold graph_node
  refine past_parts (touches_graph_fault env) (fun _ t hf => ?_)
    (fun e t hf => ⟨hf, by rintro _ ⟨⟩⟩)
  rw [if_neg (by decide)]
  refine past_return (K := []) (touches_checkpoint env _ _ _ _ _ _)
    (returns_checkpoint env _ _ _ _ _ _) fun _ t' hf' => ?_
  simp only [node_fn, node_finalize_report, meets_bind, meets_read, meets_pure, then_ok]
  refine ⟨hf.trans hf', ?_⟩
  rintro _ ⟨⟩
  exact ⟨_, rfl⟩

/-- The last node stores the report. -/
theorem graph_persist.spec {may_flag : Prop} {report : EvaluationReport} (id : WorkflowIdentity)
    (resuming : Bool) {state : EvaluationState} (hreport : state.report = some report)
    (hflag : report.needs_human_review = true → may_flag ∧ TokenOf w report) :
    Meets AnyStep (graph_node env id resuming state .persist_result) w
      (fun _ w' => Ruled report.evaluation_id may_flag w w') := by
  have hquiet : ∀ {t : World}, Frame [] w t → OnlyOf report.evaluation_id w t := fun hf =>
    .of_frame hf (by simp) (by simp) (by simp)
  unfold graph_node
  refine past_parts (K := []) (touches_graph_fault env) (fun _ t hf => ?_)
    (fun e t hf => .of_only hf (by simp) (hquiet hf))
  rw [if_neg (by decide)]
  refine past_return (K := []) (touches_checkpoint env _ _ _ _ _ _)
    (returns_checkpoint env _ _ _ _ _ _) fun _ t' hf' => ?_
  have hf := hf.trans hf'
  have htokens : t'.store.resume_tokens = w.store.resume_tokens := hf.same .tokens (by simp)
  refine (node_persist_result.spec hreport fun hneeds => ?_).post
    fun r t'' h => .from hf (by simp) (hquiet hf) h
  obtain ⟨hmay, interrupt, record, hinterrupt, hrecord, hrest⟩ := hflag hneeds
  exact ⟨hmay, interrupt, record, hinterrupt, htokens ▸ hrecord, hrest⟩

/-- The nodes from the gate on rule on the evaluation. Only a resume can
leave a flagged report. -/
theorem after_interrupt.spec (id : WorkflowIdentity) (resuming : Bool) (state : EvaluationState)
    (w : World) :
    Meets AnyStep (after_interrupt.foldlM (graph_node env id resuming) state) w
      (fun _ w' => Ruled state.evaluation_id (resuming = true) w w') := by
  simp only [after_interrupt, List.foldlM_cons, List.foldlM_nil]
  refine (graph_gate.spec id resuming state w).bind ?_
    (fun e t h => .of_only h.frame (by simp) h.only)
  rintro merged t₁ hpassed
  have hid : merged.evaluation_id = state.evaluation_id := (hpassed.case _ rfl).evaluation_id
  refine (graph_finalize.spec id resuming merged t₁).bind ?_ ?_
  · rintro final t₂ ⟨hf₂, hreport⟩
    obtain ⟨store, hreport⟩ := hreport final rfl
    have hf : Frame [.tokens, .interrupted] w t₂ := hpassed.frame.trans (hf₂.mono (by simp))
    have honly : OnlyOf state.evaluation_id w t₂ :=
      hpassed.only.trans (.of_frame hf₂ (by simp) (by simp) (by simp))
    have hruled : Meets AnyStep (graph_node env id resuming final .persist_result) t₂
        (fun _ w' => Ruled merged.evaluation_id (resuming = true) t₂ w') :=
      graph_persist.spec id resuming hreport fun hneeds => ⟨(hpassed.issued _ rfl hneeds).1,
        report_of_issued (fun h => (hpassed.issued _ rfl h).2.frame hf₂ (by simp)) hneeds⟩
    refine hruled.bind (fun last t₃ h => ?_) (fun e t₃ h => ?_)
    · rw [meets_pure]
      exact .from hf (by simp) honly (hid ▸ h)
    · exact .from hf (by simp) honly (hid ▸ h)
  · rintro e t₂ ⟨hf₂, -⟩
    exact .of_only (hpassed.frame.trans (hf₂.mono (by simp))) (by simp)
      (hpassed.only.trans (.of_frame hf₂ (by simp) (by simp) (by simp)))

/-- The nodes from the entry point to the end, on a first pass. -/
theorem edge_order.spec (id : WorkflowIdentity) (state : EvaluationState) (w : World) :
    Meets AnyStep (edge_order.foldlM (graph_node env id false) state) w
      (fun _ w' => Ruled state.evaluation_id False w w') := by
  have hquiet : ∀ {t : World}, Frame [] w t → Ruled state.evaluation_id False w t := fun hf =>
    .of_only hf (by simp) (.of_frame hf (by simp) (by simp) (by simp))
  have horder : edge_order = Node.load_context :: .retrieve_evidence :: .evaluate_rules ::
    .score_with_llm :: after_interrupt := rfl
  rw [horder]
  simp only [List.foldlM_cons]
  refine (graph_node_case id false state .load_context (by decide)
    (load_context_case state) w).bind ?_ (fun e t h => hquiet h.1)
  rintro s₁ t₁ ⟨hf₁, hcase₁⟩
  refine (graph_node_case id false s₁ .retrieve_evidence (by decide)
    (retrieve_evidence_case s₁) t₁).bind ?_ (fun e t h => hquiet (hf₁.trans h.1))
  rintro s₂ t₂ ⟨hf₂, hcase₂⟩
  refine (graph_node_case id false s₂ .evaluate_rules (by decide)
    (evaluate_rules_case s₂) t₂).bind ?_ (fun e t h => hquiet ((hf₁.trans hf₂).trans h.1))
  rintro s₃ t₃ ⟨hf₃, hcase₃⟩
  have hf := (hf₁.trans hf₂).trans hf₃
  refine (graph_node_case id false s₃ .score_with_llm (by decide)
    (score_with_llm_case s₃) t₃).bind ?_ (fun e t h => hquiet (hf.trans h.1))
  rintro s₄ t₄ ⟨hf₄, hcase₄⟩
  have hf := hf.trans hf₄
  have hcase : SameCase state s₄ :=
    (((hcase₁ s₁ rfl).trans (hcase₂ s₂ rfl)).trans (hcase₃ s₃ rfl)).trans (hcase₄ s₄ rfl)
  refine (after_interrupt.spec id false s₄ t₄).post fun r t₅ h => ?_
  have hruled : Ruled state.evaluation_id False t₄ t₅ := by
    rw [← hcase.evaluation_id]
    exact h.mono (by decide)
  exact .from hf (by simp) (.of_frame hf (by simp) (by simp) (by simp)) hruled

/-- A pass through the graph rules on the evaluation, however it ends. -/
theorem run_nodes.spec {may_flag : Prop} {resuming : Bool} {nodes : List Node}
    {state : EvaluationState} {id : WorkflowIdentity} {evaluation_id : String}
    (h : Meets AnyStep (nodes.foldlM (graph_node env id resuming) state) w
      (fun _ w' => Ruled evaluation_id may_flag w w')) :
    Meets AnyStep (catching (run_nodes env id resuming nodes state) (on_interrupt env)) w
      (fun _ w' => Ruled evaluation_id may_flag w w') := by
  have hlater : ∀ {t t' : World}, Ruled evaluation_id may_flag w t → Frame [] t t' →
      Ruled evaluation_id may_flag w t' := fun hruled hf =>
    hruled.later hf (by simp) (by simp) (by simp)
  rw [meets_catching]
  unfold run_nodes
  refine h.bind (fun _ t hruled => ?_) (fun e t hruled => ?_)
  · refine (ends_touches (K := []) (touches_graph_fault env) t).post fun r t' hf => ?_
    cases r with
    | ok _ => exact hlater hruled hf
    | error e =>
      exact (ends_touches (K := []) (touches_on_interrupt env e) t').post fun _ _ hf' =>
        hlater (hlater hruled hf) hf'
  · exact (ends_touches (K := []) (touches_on_interrupt env e) t).post fun _ _ hf =>
      hlater hruled hf

/-- A new run of the graph never leaves a new flagged report. -/
theorem invoke.spec (id : WorkflowIdentity) (state : EvaluationState) (w : World) :
    Meets AnyStep (invoke env id state) w
      (fun _ w' => Ruled state.evaluation_id False w w') := by
  unfold invoke
  refine (save_interrupted.spec state.evaluation_id id.thread_id none (by simp) w).bind ?_
    (fun e t h => by cases h.1)
  rintro _ t ⟨-, hf, honly⟩
  exact (run_nodes.spec (edge_order.spec id state t)).post fun _ _ h => .from hf (by simp) honly h

/-- A resume rules on the evaluation of the state that waits, if one does. -/
theorem invoke_resume.spec (id : WorkflowIdentity) (w : World) :
    Meets AnyStep (invoke_resume env id) w (fun _ w' =>
      match w.interrupted id.thread_id with
      | none => Frame [] w w'
      | some state => Ruled state.evaluation_id True w w') := by
  unfold invoke_resume
  rw [meets_bind, meets_read, then_ok]
  rcases hwaiting : w.interrupted id.thread_id with _ | state
  · exact ends_touches (touches_graph_fault env) w
  · refine (run_nodes.spec (after_interrupt.spec id true state w)).post fun _ _ h => ?_
    exact h.mono fun _ => trivial

/-! ## The evaluation job -/

/-- Only jobs changed, so the ruling stands. -/
theorem ruled_after_finish {e : String} {may_flag : Prop} {t : World} (h : Ruled e may_flag w t)
    (hf : Frame [.jobs] t w') : Ruled e may_flag w w' :=
  h.later hf (by simp) (by simp) (by simp)

theorem run_evaluation_graph.rules (job : Job) (tenant_id : String) (w : World) :
    Meets AnyStep (run_evaluation_graph env job tenant_id) w
      (fun _ w' => Ruled job.resource_id False w w') := by
  have hfinish : ∀ status thread_id {t : World}, Ruled job.resource_id False w t →
      Meets AnyStep (finish env job status tenant_id thread_id (some job.resource_id)) t
        (fun _ w' => Ruled job.resource_id False w w') := fun status thread_id t h =>
    (ends_touches (K := [.jobs]) (touches_finish env (by simp) _ _ _ _ _) t).post
      fun _ _ hf => ruled_after_finish h hf
  unfold run_evaluation_graph
  refine past_return (K := []) (touches_thread_of env job "eval") (returns_thread_of env job "eval")
    fun thread_id t hf => ?_
  have hinvoke : Meets AnyStep (invoke_evaluation env job tenant_id thread_id) t
      (fun _ t' => Ruled job.resource_id False w t') :=
    (invoke.spec _ _ t).post fun _ _ h =>
      .from hf (by simp) (.of_frame hf (by simp) (by simp) (by simp)) h
  rw [meets_catching]
  refine hinvoke.bind (fun _ t' h => ?_) (fun e t' h => ?_)
  · refine (hfinish .succeeded thread_id h).post fun r w' h' => ?_
    rcases r with (api | _ | raised) | _
    · rw [handled_error, meets_raise]
      exact h'
    · exact hfinish _ _ h'
    · rw [handled_error, meets_raise]
      exact h'
    · exact h'
  · rcases e with api | _ | raised
    · rw [handled_error, meets_raise]
      exact h
    · exact hfinish _ _ h
    · rw [handled_error, meets_raise]
      exact h

/-- The run of an evaluation job never leaves a new flagged report. -/
theorem run_evaluation_job.rules (job : Job) (tenant_id : String) (w : World) :
    Meets AnyStep (run_evaluation_job env job tenant_id) w
      (fun _ w' => Ruled job.resource_id False w w') := by
  have hcompat : ∀ thread_id status nodes {t : World}, Ruled job.resource_id False w t →
      Meets AnyStep (append_checkpoints env thread_id job tenant_id nodes >>= fun _ =>
        finish env job status tenant_id thread_id (some job.resource_id)) t
        (fun _ w' => Ruled job.resource_id False w w') := fun thread_id status nodes t h =>
    (ends_touches (K := [.jobs]) (keeps_bind (touches_checkpoints env _ _ _ _) fun _ =>
      touches_finish env (by simp) _ _ _ _ _) t).post fun _ _ hf => ruled_after_finish h hf
  have hworkflow : Meets AnyStep (run_evaluation_workflow env job tenant_id) w
      (fun _ w' => Ruled job.resource_id False w w') := by
    unfold run_evaluation_workflow
    refine past_return (K := []) (touches_thread_of env job "eval")
      (returns_thread_of env job "eval") fun thread_id t hf => ?_
    have hruled : Ruled job.resource_id False w t :=
      .of_only hf (by simp) (.of_frame hf (by simp) (by simp) (by simp))
    rw [meets_bind, meets_read, then_ok, meets_bind, meets_lift]
    rcases env.workflow_runtime with e | mode
    · exact hruled
    · cases mode with
      | compat =>
        rw [then_ok, meets_ite]
        exact ⟨fun _ => hcompat _ _ _ hruled, fun _ => hcompat _ _ _ hruled⟩
      | langgraph =>
        rw [then_ok]
        have hgraph : Meets AnyStep (run_evaluation_graph env job tenant_id) t
            (fun _ w' => Ruled job.resource_id False w w') :=
          (run_evaluation_graph.rules job tenant_id t).post fun _ _ h =>
            .from hf (by simp) (.of_frame hf (by simp) (by simp) (by simp)) h
        refine hgraph.catching (fun _ _ h => h) fun e t' h => ?_
        rw [meets_ite, meets_raise]
        exact ⟨fun _ => h, fun _ => hcompat _ _ _ h⟩
  unfold run_evaluation_job
  refine hworkflow.bind (fun result t h => ?_) (fun e t h => h)
  refine past_parts (K := []) (touches_evaluation_checkpoint env _ _ _) (fun _ t' hf => ?_)
    (fun e t' hf => h.later hf (by simp) (by simp) (by simp))
  rw [meets_pure]
  exact h.later hf (by simp) (by simp) (by simp)

end bid_evaluation.review_steps
