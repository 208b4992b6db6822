-- The laws of the scoring. The loop over the criteria stops when the budget
-- is spent, and a criterion may have no evidence: the gate looks at neither,
-- so a report can pass it with a part of its criteria or with no citation.
import Mathlib.Data.List.Dedup
import BidEvaluation.EditLaws

open dict_lib stepwise bid_evaluation.values bid_evaluation.core bid_evaluation.store_workflow
  bid_evaluation.store_admin bid_evaluation.store_retrieval bid_evaluation.evaluation_nodes
  bid_evaluation.langgraph_runtime bid_evaluation.operations bid_evaluation.endings
  bid_evaluation.review_steps
  bid_evaluation.token_laws bid_evaluation.edit_laws

namespace bid_evaluation.scoring_laws

variable {env : Env} {w : World}

/-! ## The budget -/

/-- The answer that scores a criterion: of the mock once the budget has
degraded, else of the LLM. -/
def answer_of (env : Env) (status : BudgetStatus) (n : Nat) : Except PyErr LlmResult :=
  if status = .degrade then .ok (env.mock_score_criteria n) else env.llm_score_criteria n

/-- The tracker after the first criteria, whose answers begin at a draw. -/
def tracker_after (env : Env) (d : Nat) : Nat → CostBudgetTracker
  | 0 => ⟨0, false, false⟩
  | i + 1 =>
    let checked := check_budget env (tracker_after env d i)
    match answer_of env checked.1 (d + i) with
    | .ok answer =>
      { checked.2 with total_tokens := checked.2.total_tokens + answer.total_tokens }
    | .error _ => checked.2

/-- What the budget says before a criterion. -/
def budget_status (env : Env) (d i : Nat) : BudgetStatus :=
  (check_budget env (tracker_after env d i)).1

/-- The budget does not block any of the criteria from one to another. -/
def Affords (env : Env) (d i k : Nat) : Prop :=
  ∀ j, i ≤ j → j < k → budget_status env d j ≠ .blocked

/-! ## The loop over the criteria -/

/-- The chunks that a criterion can cite. -/
def citation_ids (state : EvaluationState) (cid : String) : List String :=
  (((lookupEntry state.criteria_evidence cid).getD []).map (fun ev => ev.chunk_id)).filter
    (fun id => id ≠ "")

/-- A result cites the evidence of its criterion. -/
def Cites (s : Store) (state : EvaluationState) (r : CriteriaResult) : Prop :=
  r.citations = resolve_citations_batch s (citation_ids state r.criteria_id) false

/-- The loop has scored the first criteria. -/
structure Going (env : Env) (d i : Nat) (acc : Scoring) (t : World) : Prop where
  goes : acc.cost_exceeded = false
  tracker : acc.tracker = tracker_after env d i
  draws : t.draws = d + i

/-- One turn of the loop: the budget blocks it, or there is a new result. -/
theorem score_criteria.spec {d i : Nat} {acc : Scoring} (state : EvaluationState)
    (criteria : PyDict) (h : Going env d i acc w) :
    Meets AnyStep (score_criteria env state acc criteria) w (fun r t => t.store = w.store ∧
      ∀ acc', r = .ok acc' →
        (budget_status env d i = .blocked ∧ acc'.cost_exceeded = true ∧
          acc'.criteria_results = acc.criteria_results) ∨
        (budget_status env d i ≠ .blocked ∧ Going env d (i + 1) acc' t ∧
          ∃ result, acc'.criteria_results = acc.criteria_results ++ [result] ∧
            result.criteria_id = criteria_id_of env criteria ∧ Cites w.store state result)) := by
  unfold score_criteria
  rw [if_neg (by simp [h.goes]), meets_bind, meets_lift]
  rcases (criteria.getD "max_score" (.float 20)).toFloat env.float_of_str with e | max_score
  · exact ⟨rfl, by rintro _ ⟨⟩⟩
  rw [then_ok, h.tracker]
  unfold budget_status
  rcases hcheck : check_budget env (tracker_after env d i) with ⟨status, tracker⟩
  dsimp only
  by_cases hblocked : status = .blocked
  · rw [if_pos hblocked, meets_pure]
    refine ⟨rfl, ?_⟩
    rintro _ ⟨⟩
    exact .inl ⟨hblocked, rfl, rfl⟩
  rw [if_neg hblocked]
  refine (draw.reads w).bind ?_ (by rintro e t ⟨he, -⟩; cases he)
  rintro n t ⟨⟨⟩, rfl⟩
  rw [meets_bind, meets_lift, h.draws]
  rcases hanswer : answer_of env status (d + i) with e | answer
  · unfold answer_of at hanswer
    rw [hanswer]
    exact ⟨rfl, by rintro _ ⟨⟩⟩
  have hnext : tracker_after env d (i + 1) =
      { tracker with total_tokens := tracker.total_tokens + answer.total_tokens } := by
    rw [tracker_after, hcheck]
    dsimp only
    rw [hanswer]
  unfold answer_of at hanswer
  rw [hanswer, then_ok, meets_bind, meets_read, then_ok, meets_pure]
  refine ⟨rfl, ?_⟩
  rintro _ ⟨⟩
  refine .inr ⟨hblocked, ⟨rfl, hnext.symm, ?_⟩, _, rfl, rfl, rfl⟩
  show d + i + 1 = d + (i + 1)
  omega

/-- A loop that was blocked goes on without a new result. -/
theorem blocked_loop.spec {acc : Scoring} (state : EvaluationState) (h : acc.cost_exceeded = true)
    (defs : List PyDict) (w : World) :
    Meets AnyStep (defs.foldlM (score_criteria env state) acc) w
      (fun r t => r = .ok acc ∧ t = w) := by
  induction defs with
  | nil =>
    rw [List.foldlM_nil, meets_pure]
    exact ⟨rfl, rfl⟩
  | cons criteria rest ih =>
    rw [List.foldlM_cons, meets_bind]
    unfold score_criteria
    rw [if_pos h, meets_pure, then_ok]
    exact ih

/-- The loop adds a result for each of the criteria, in order, exactly when
the budget affords them all. -/
theorem scoring_loop.spec {d i : Nat} {acc : Scoring} (state : EvaluationState)
    (defs : List PyDict) (h : Going env d i acc w) :
    Meets AnyStep (defs.foldlM (score_criteria env state) acc) w (fun r t => t.store = w.store ∧
      ∀ acc', r = .ok acc' → ∃ results,
        acc'.criteria_results = acc.criteria_results ++ results ∧
        (results.map (fun r => r.criteria_id) = defs.map (criteria_id_of env) ↔
          Affords env d i (i + defs.length)) ∧
        ∀ result ∈ results, Cites w.store state result) := by
  induction defs generalizing i acc w with
  | nil =>
    rw [List.foldlM_nil, meets_pure]
    refine ⟨rfl, ?_⟩
    rintro _ ⟨⟩
    refine ⟨[], by simp, iff_of_true rfl ?_, by simp⟩
    intro j hle hlt
    simp at hlt
    omega
  | cons criteria rest ih =>
    rw [List.foldlM_cons]
    refine (score_criteria.spec state criteria h).bind ?_ ?_
    · rintro acc₁ t₁ ⟨hstore, hends⟩
      rcases hends acc₁ rfl with ⟨hblocked, hstops, hresults⟩ |
        ⟨hfree, hgoing, result, hresults, hid, hcites⟩
      · refine (blocked_loop.spec state hstops rest t₁).post ?_
        rintro r t ⟨hr, rfl⟩
        refine ⟨hstore, ?_⟩
        intro acc' hok
        rw [hr] at hok
        cases hok
        refine ⟨[], by rw [hresults, List.append_nil], ?_, by simp⟩
        apply iff_of_false
        · simp
        · intro haffords
          exact haffords i (Nat.le_refl i) (by simp) hblocked
      · refine (ih hgoing).post ?_
        rintro r t ⟨hstore', hloop⟩
        refine ⟨hstore'.trans hstore, ?_⟩
        intro acc' hok
        obtain ⟨results, hmore, hiff, hall⟩ := hloop acc' hok
        refine ⟨result :: results, by rw [hmore, hresults, List.append_assoc]; rfl, ?_, ?_⟩
        · rw [List.map_cons, List.map_cons, hid, List.cons.injEq, List.length_cons]
          simp only [true_and, hiff]
          constructor
          · intro haffords j hle hlt
            by_cases hj : j = i
            · rw [hj]
              exact hfree
            · exact haffords j (by omega) (by omega)
          · intro haffords j hle hlt
            exact haffords j (by omega) (by omega)
        · intro x hx
          rcases List.mem_cons.1 hx with rfl | hx
          · exact hcites
          · rw [← hstore]
            exact hall x hx
    · rintro e t ⟨hstore, -⟩
      exact ⟨hstore, by rintro _ ⟨⟩⟩

/-! ## The nodes up to the report -/

/-- The nodes before the gate, on a context that has been loaded. -/
def run_to_score (env : Env) (state : EvaluationState) : Act EvaluationState := do
  let state ← node_retrieve_evidence env state
  let state ← node_evaluate_rules env state
  node_score_with_llm env state

def run_to_report (env : Env) (state : EvaluationState) : Act EvaluationState := do
  let state ← run_to_score env state
  let state ← node_quality_gate env state
  node_finalize_report state

/-- The linear runtime loads the context, makes the report by these nodes and
stores it. -/
theorem nodes_make_the_report (env : Env) (state : EvaluationState) :
    run_evaluation_nodes_sequentially env state = (do
      let loaded ← node_load_context env state
      let reported ← run_to_report env loaded
      node_persist_result env reported) := by
  unfold run_evaluation_nodes_sequentially run_to_report run_to_score
  simp only [then_assoc]

/-- The gate has a reason to flag the state. -/
def Flags (env : Env) (s : Store) (state : EvaluationState) : Prop :=
  hitl_reasons env state (gate_numbers env s state) ≠ []

def criteria_of (state : EvaluationState) : List PyDict := state.criteria_defs.filterMap asDict

/-- The chunks of all evidence. -/
def evidence_ids (state : EvaluationState) : List String :=
  ((state.criteria_evidence.flatMap Prod.snd).map (fun ev => ev.chunk_id)).filter
    (fun id => id ≠ "")

/-- The sources that were there are still there, and any other source is of
the tenant. -/
structure Sourced (tenant_id : String) (w t : World) : Prop where
  kept : ∀ id source, w.store.citation_sources.get? id = some source →
    t.store.citation_sources.get? id = some source
  own : ∀ id source, t.store.citation_sources.get? id = some source →
    w.store.citation_sources.get? id = some source ∨ source.tenant_id = tenant_id

theorem gather_evidence.reads (env : Env) (criteria_defs : List PyVal) (w : World) :
    Meets AnyStep (gather_evidence env criteria_defs) w (fun _ t => t.store = w.store) := by
  unfold gather_evidence
  refine (meets_foldlM (I := fun _ t => t.store = w.store) (E := fun _ t => t.store = w.store)
    ?_ _ _ w rfl).post ?_
  · intro found criteria t hsame
    refine (draw.reads t).bind ?_ (by rintro e t' ⟨he, -⟩; cases he)
    rintro n t' ⟨-, rfl⟩
    rw [meets_bind, meets_lift]
    rcases env.retrieve_evidence n with e | evidence
    · exact hsame
    · rw [then_ok, meets_pure]
      exact hsame
  · rintro (e | found) t hsame
    · exact hsame
    · exact hsame

/-- A source is registered only for a chunk that has none. -/
theorem register_sources.spec (env : Env) (state : EvaluationState)
    (criteria_evidence : List (String × List Evidence)) (ids : List String) (w : World) :
    Meets AnyStep (register_citation_sources env state criteria_evidence ids) w
      (fun _ t => Sourced state.tenant_id w t) := by
  unfold register_citation_sources
  refine (meets_foldlM (I := fun _ t => Sourced state.tenant_id w t)
    (E := fun _ t => Sourced state.tenant_id w t) ?_ _ _ w
      ⟨fun _ _ h => h, fun _ _ h => .inl h⟩).post
    ?_
  · intro u chunk_id t hsourced
    rw [meets_bind, meets_read, then_ok]
    split
    · rw [meets_pure]
      exact hsourced
    · rename_i hnone
      split
      · rw [meets_pure]
        exact hsourced
      · rename_i ev hev
        unfold register_citation_source
        refine saved.spec ?_ ?_
        · unfold update
          rw [meets_write]
          refine ⟨trivial, ?_, ?_⟩
          · intro id source hsource
            have hkept := hsourced.kept id source hsource
            have hne : id ≠ chunk_id := by
              intro heq
              rw [heq, hnone] at hkept
              cases hkept
            exact (Dict.get?_set_of_ne _ _ hne).trans hkept
          · intro id source hsource
            by_cases heq : id = chunk_id
            · subst heq
              rw [Dict.get?_set_self] at hsource
              cases hsource
              exact .inr rfl
            · rw [Dict.get?_set_of_ne _ _ heq] at hsource
              exact hsourced.own id source hsource
        · intro u t' t'' h hstore _
          cases u
          exact ⟨fun id source hs => hstore ▸ h.kept id source hs,
            fun id source hs => h.own id source (hstore ▸ hs)⟩
  · rintro (e | u) t h
    · exact h
    · exact h

theorem retrieve_evidence.spec (env : Env) (state : EvaluationState) (w : World) :
    Meets AnyStep (node_retrieve_evidence env state) w (fun r t => ∀ retrieved, r = .ok retrieved →
      Sourced state.tenant_id w t ∧ retrieved.criteria_defs = state.criteria_defs ∧
        retrieved.citations_all_ids = evidence_ids retrieved) := by
  unfold node_retrieve_evidence
  refine (gather_evidence.reads env state.criteria_defs w).bind ?_ (by rintro e t - _ ⟨⟩)
  intro found t hsame
  refine (register_sources.spec env state _ _ t).bind ?_ (by rintro e t' - _ ⟨⟩)
  intro _ t' hsourced
  rw [meets_pure]
  rintro _ ⟨⟩
  refine ⟨⟨?_, ?_⟩, rfl, rfl⟩
  · intro id source hsource
    exact hsourced.kept id source (hsame ▸ hsource)
  · intro id source hsource
    rw [← hsame]
    exact hsourced.own id source hsource

/-- What the loop makes of a state that has its evidence. -/
structure Scores (env : Env) (d : Nat) (t : World) (state scored : EvaluationState) : Prop where
  criteria_evidence : scored.criteria_evidence = state.criteria_evidence
  complete : scored.criteria_results.map (fun r => r.criteria_id) =
    (criteria_of state).map (criteria_id_of env) ↔ Affords env d 0 (criteria_of state).length
  cites : ∀ r ∈ scored.criteria_results, Cites t.store state r
  supported : scored.unsupported_claims = [] →
    ∀ id ∈ state.citations_all_ids, has_source t.store id = true

theorem score_with_llm.spec (env : Env) (state : EvaluationState) (w : World) :
    Meets AnyStep (node_score_with_llm env state) w (fun r t => t.store = w.store ∧
      ∀ scored, r = .ok scored → Scores env w.draws w state scored) := by
  have hstart : Going env w.draws 0 ⟨⟨0, false, false⟩, [], [], false⟩ w := ⟨rfl, rfl, rfl⟩
  unfold node_score_with_llm
  refine (scoring_loop.spec state _ hstart).bind ?_ ?_
  · rintro acc t ⟨hstore, hends⟩
    obtain ⟨results, hresults, hiff, hcites⟩ := hends acc rfl
    rw [List.nil_append] at hresults
    rw [Nat.zero_add] at hiff
    rw [meets_bind, meets_read, then_ok, meets_pure]
    refine ⟨hstore, ?_⟩
    rintro _ ⟨⟩
    refine ⟨rfl, hresults ▸ hiff, hresults ▸ hcites, ?_⟩
    intro hnone id hid
    by_contra hmissing
    have hin : id ∈ (state.citations_all_ids.filter
        (fun cid => !has_source t.store cid)).dedup := by
      rw [List.mem_dedup, List.mem_filter, hstore]
      exact ⟨hid, by simpa using hmissing⟩
    rw [(List.append_eq_nil_iff.1 hnone).2] at hin
    cases hin
  · rintro e t ⟨hstore, -⟩
    exact ⟨hstore, by rintro _ ⟨⟩⟩

/-- What the nodes before the gate leave. -/
structure Prepared (env : Env) (w t : World) (state scored : EvaluationState) : Prop where
  sourced : Sourced state.tenant_id w t
  complete : scored.criteria_results.map (fun r => r.criteria_id) =
    (criteria_of state).map (criteria_id_of env) ↔
      Affords env ((node_retrieve_evidence env state).final w).draws 0 (criteria_of state).length
  cites : ∀ r ∈ scored.criteria_results, Cites t.store scored r
  supported : scored.unsupported_claims = [] →
    ∀ id ∈ evidence_ids scored, has_source t.store id = true

theorem run_to_score.spec (env : Env) (state : EvaluationState) (w : World) :
    Meets AnyStep (run_to_score env state) w (fun r t => ∀ scored, r = .ok scored →
      Prepared env w t state scored) := by
  have hends := (keeps_true (node_retrieve_evidence env state)).ends w
  unfold run_to_score
  refine ((retrieve_evidence.spec env state w).and hends).bind ?_ (by rintro e t - _ ⟨⟩)
  rintro retrieved t ⟨hretrieved, -, rfl⟩
  obtain ⟨hsourced, hdefs, hids⟩ := hretrieved retrieved rfl
  unfold node_evaluate_rules
  rw [meets_bind, meets_pure, then_ok]
  refine (score_with_llm.spec env _ _).post ?_
  rintro r t ⟨hstore, hends⟩ scored hscored
  have hscores := hends scored hscored
  have hcriteria : criteria_of state = criteria_of retrieved := by
    unfold criteria_of
    rw [hdefs]
  have hevidence : scored.criteria_evidence = retrieved.criteria_evidence :=
    hscores.criteria_evidence
  refine ⟨⟨?_, ?_⟩, ?_, ?_, ?_⟩
  · intro id source hsource
    rw [hstore]
    exact hsourced.kept id source hsource
  · intro id source hsource
    rw [hstore] at hsource
    exact hsourced.own id source hsource
  · rw [hcriteria]
    exact hscores.complete
  · intro result hresult
    have hcites := hscores.cites result hresult
    unfold Cites citation_ids at hcites ⊢
    rw [hstore, hevidence]
    exact hcites
  · intro hnone id hid
    rw [hstore]
    refine hscores.supported hnone id ?_
    show id ∈ retrieved.citations_all_ids
    rw [hids]
    unfold evidence_ids at hid ⊢
    rw [← hevidence]
    exact hid

/-! ## The gate and the report -/

/-- The report of a scored state after its gate. -/
structure Reported (env : Env) (t t' : World) (scored : EvaluationState)
    (report : EvaluationReport) : Prop where
  sources : t'.store.citation_sources = t.store.citation_sources
  flag : report.needs_human_review = true ↔ Flags env t.store scored
  results : report.criteria_results = scored.criteria_results.map (apply_edit scored.edited_scores)

theorem issue_token.keeps_sources (env : Env) (state : EvaluationState) (reasons : List String)
    (w : World) :
    Meets AnyStep (issue_resume_token env state reasons) w (fun r t =>
      (∃ interrupt, r = .ok interrupt) ∧
        t.store.citation_sources = w.store.citation_sources) := by
  unfold issue_resume_token
  rw [meets_ite]
  constructor
  · intro _
    rw [meets_pure]
    exact ⟨⟨none, rfl⟩, rfl⟩
  · intro _
    refine (uuid4.reads w).bind ?_ (by rintro e t ⟨⟨hex, he⟩, -⟩; cases he)
    rintro hex t ⟨-, rfl⟩
    have hregister := (register.spec env state.evaluation_id ("rt_" ++ hex) state.tenant_id reasons
      { w with draws := w.draws + 1 }).and (register_resume_token.spec state.evaluation_id
        ("rt_" ++ hex) state.tenant_id reasons { w with draws := w.draws + 1 })
    refine hregister.bind ?_ (by rintro e t ⟨-, he, -⟩; cases he)
    rintro u t ⟨hstore, -⟩
    rw [meets_pure]
    refine ⟨⟨_, rfl⟩, ?_⟩
    rw [hstore]
    rfl

theorem gate_and_report.spec (env : Env) (scored : EvaluationState) (t : World) :
    Meets AnyStep (node_quality_gate env scored >>= node_finalize_report) t (fun r t' =>
      ∃ final report, r = .ok final ∧ final.report = some report ∧
        Reported env t t' scored report) := by
  unfold node_quality_gate node_finalize_report
  rw [meets_bind, meets_bind, meets_read, then_ok]
  refine (issue_token.keeps_sources env scored _ t).bind ?_
    (by rintro e t ⟨⟨interrupt, he⟩, -⟩; cases he)
  rintro interrupt t' ⟨-, hsources⟩
  rw [meets_pure, then_ok, meets_bind, meets_read, then_ok, meets_pure]
  refine ⟨_, _, rfl, rfl, hsources, ?_, rfl⟩
  unfold Flags
  simp [report_of]

theorem report_of_scored {state scored : EvaluationState}
    (h : (run_to_score env state).result w = .ok scored) :
    ∃ final report, (run_to_report env state).result w = .ok final ∧
      final.report = some report ∧ Reported env ((run_to_score env state).final w)
        ((run_to_report env state).final w) scored report := by
  obtain ⟨final, report, hfinal, hreport, hreported⟩ :=
    (gate_and_report.spec env scored ((run_to_score env state).final w)).2
  unfold run_to_report
  rw [result_bind h, final_bind h]
  exact ⟨final, report, hfinal, hreport, hreported⟩

/-- A law of the reports that pass the gate is a law of the scored states
that the gate does not flag. -/
theorem passed_reports_iff {state : EvaluationState} {P : EvaluationReport → Prop}
    {Q : EvaluationState → Prop}
    (h : ∀ scored report, (run_to_score env state).result w = .ok scored →
      ¬ Flags env ((run_to_score env state).final w).store scored →
      Reported env ((run_to_score env state).final w) ((run_to_report env state).final w) scored
        report → (P report ↔ Q scored)) :
    (∀ final report, (run_to_report env state).result w = .ok final →
      final.report = some report → report.needs_human_review = false → P report) ↔
    ∀ scored, (run_to_score env state).result w = .ok scored →
      Flags env ((run_to_score env state).final w).store scored ∨ Q scored := by
  constructor
  · intro hlaw scored hscored
    by_cases hflags : Flags env ((run_to_score env state).final w).store scored
    · exact .inl hflags
    · obtain ⟨final, report, hfinal, hreport, hreported⟩ := report_of_scored hscored
      have hpasses : report.needs_human_review = false := by
        rw [← Bool.not_eq_true, hreported.flag]
        exact hflags
      exact .inr ((h scored report hscored hflags hreported).1
        (hlaw final report hfinal hreport hpasses))
  · intro hlaw final report hfinal hreport hpasses
    rcases hscored : (run_to_score env state).result w with e | scored
    · unfold run_to_report at hfinal
      rw [result_bind_error hscored] at hfinal
      cases hfinal
    · obtain ⟨final', report', hfinal', hreport', hreported⟩ := report_of_scored hscored
      rw [hfinal'] at hfinal
      cases hfinal
      rw [hreport'] at hreport
      cases hreport
      have hflags : ¬ Flags env ((run_to_score env state).final w).store scored := by
        rw [← hreported.flag, hpasses]
        simp
      exact (h scored report hscored hflags hreported).2
        ((hlaw scored hscored).resolve_left hflags)

theorem edited_ids (edits : List (String × Rat)) (results : List CriteriaResult) :
    (results.map (apply_edit edits)).map (fun r => r.criteria_id) =
      results.map (fun r => r.criteria_id) := by
  rw [List.map_map]
  apply List.map_congr_left
  intro r _
  unfold apply_edit
  dsimp only [Function.comp]
  split <;> rfl

theorem edited_citations (edits : List (String × Rat)) (r : CriteriaResult) :
    (apply_edit edits r).citations = r.citations := by
  unfold apply_edit
  split <;> rfl

theorem supported_of_passed {s : Store} {state : EvaluationState} (h : ¬ Flags env s state) :
    state.unsupported_claims = [] := by
  by_contra hclaims
  apply h
  unfold Flags hitl_reasons
  rw [if_pos hclaims]
  simp

/-- A chunk that has a source after the retrieval has one of the tenant,
unless another tenant's was there before. -/
theorem own_source_iff {tenant_id id : String} {t : World} (h : Sourced tenant_id w t)
    (hsource : has_source t.store id = true) :
    (∃ source, t.store.citation_sources.get? id = some source ∧ source.tenant_id = tenant_id) ↔
      ∀ source, w.store.citation_sources.get? id = some source →
        source.tenant_id = tenant_id := by
  unfold has_source at hsource
  obtain ⟨found, hfound⟩ := Option.isSome_iff_exists.1 hsource
  constructor
  · rintro ⟨source, hsource, howned⟩ before hbefore
    rw [h.kept id before hbefore] at hsource
    cases hsource
    exact howned
  · intro hbefore
    refine ⟨found, hfound, ?_⟩
    rcases h.own id found hfound with hold | hown
    · exact hbefore found hold
    · exact hown

theorem citation_ids_evidence {state : EvaluationState} {cid id : String}
    (h : id ∈ citation_ids state cid) : id ∈ evidence_ids state := by
  unfold citation_ids at h
  obtain ⟨hmem, hid⟩ := List.mem_filter.1 h
  obtain ⟨ev, hev, rfl⟩ := List.mem_map.1 hmem
  refine List.mem_filter.2 ⟨List.mem_map.2 ⟨ev, ?_, rfl⟩, hid⟩
  rcases hfound : lookupEntry state.criteria_evidence cid with _ | evidence
  · rw [hfound] at hev
    cases hev
  · rw [hfound] at hev
    exact List.mem_flatMap.2 ⟨(cid, evidence), mem_of_lookupEntry hfound, hev⟩

/-! ## Two bids -/

def page_one : Evidence := ⟨"chunk", .int 1, .list [], "on time", 1⟩

/-- A bid with two criteria, as the rules give them. -/
def two_criteria : EvaluationState :=
  { initial_state "tenant" "ev" "trace" "thread" "job" no_payload with
    criteria_defs :=
      [.dict [("criteria_id", .str "delivery"), ("max_score", .int 20)],
        .dict [("criteria_id", .str "price"), ("max_score", .int 20)]] }

/-- The LLM gives the full score, and spends more than the whole budget on
one criterion. -/
def costly_env : Env :=
  { calm_env with
    task_token_budget := 10
    retrieve_evidence := fun _ => .ok [page_one]
    llm_score_criteria := fun _ => .ok ⟨20, some true, none, some 1, 100⟩ }

/-- Only the first criterion has evidence. -/
def bare_env : Env :=
  { calm_env with
    retrieve_evidence := fun n => .ok (if n = 0 then [page_one] else [])
    llm_score_criteria := fun _ => .ok ⟨20, some true, none, some 1, 100⟩ }

def report_in (r : Except PyErr EvaluationState) : Option EvaluationReport :=
  r.toOption.bind (fun state => state.report)

/-- A run whose report passes the gate, with a part of that report. -/
theorem passed_with {r : Except PyErr EvaluationState} {part : EvaluationReport → α} {value : α}
    (h : (report_in r).map (fun report => (report.needs_human_review, part report)) =
      some (false, value)) :
    ∃ final report, r = .ok final ∧ final.report = some report ∧
      report.needs_human_review = false ∧ part report = value := by
  obtain ⟨report, hin, hparts⟩ := Option.map_eq_some_iff.1 h
  simp only [Prod.mk.injEq] at hparts
  unfold report_in at hin
  obtain ⟨final, hfinal, hreport⟩ := Option.bind_eq_some_iff.1 hin
  exact ⟨final, report, ok_of_toOption hfinal, hreport, hparts.1, hparts.2⟩

/-! ## The laws -/

/-- A report that passes the gate has a result for each criterion, in the
order of the rule pack. -/
def CompleteOrFlagged (env : Env) (state : EvaluationState) (w : World) : Prop :=
  ∀ final report, (run_to_report env state).result w = .ok final →
    final.report = some report → report.needs_human_review = false →
    report.criteria_results.map (fun r => r.criteria_id) =
      (criteria_of state).map (criteria_id_of env)

/-- The scoring is complete or flagged exactly when the budget affords every
criterion, or the gate has a reason that is not the budget. -/
theorem complete_or_flagged_iff (env : Env) (state : EvaluationState) (w : World) :
    CompleteOrFlagged env state w ↔
      ∀ scored, (run_to_score env state).result w = .ok scored →
        Flags env ((run_to_score env state).final w).store scored ∨
          Affords env ((node_retrieve_evidence env state).final w).draws 0
            (criteria_of state).length := by
  unfold CompleteOrFlagged
  apply passed_reports_iff (Q := fun _ => Affords env _ 0 _)
  intro scored report hscored hflags hreported
  have hprepared := (run_to_score.spec env state w).2 scored hscored
  rw [hreported.results, edited_ids]
  exact hprepared.complete

/-- The budget stops the loop before the price, and the report passes. -/
theorem unscored_criterion_passes : ¬ CompleteOrFlagged costly_env two_criteria World.start := by
  intro h
  have hfound : (report_in ((run_to_report costly_env two_criteria).result World.start)).map
      (fun report => (report.needs_human_review,
        report.criteria_results.map (fun r => r.criteria_id))) = some (false, ["delivery"]) := by
    decide +kernel
  obtain ⟨final, report, hfinal, hreport, hpassed, hparts⟩ := passed_with hfound
  have hall := h final report hfinal hreport hpassed
  rw [hparts] at hall
  revert hall
  decide +kernel

/-- A citation that has a source of the tenant. -/
def Registered (s : Store) (tenant_id : String) (c : Citation) : Prop :=
  ∃ source, s.citation_sources.get? c.chunk_id = some source ∧ source.tenant_id = tenant_id

/-- In a report that passes the gate each criterion has a citation, and each
citation has a source of the tenant. -/
def CitedOrFlagged (env : Env) (state : EvaluationState) (w : World) : Prop :=
  ∀ final report, (run_to_report env state).result w = .ok final →
    final.report = some report → report.needs_human_review = false →
    ∀ r ∈ report.criteria_results, r.citations ≠ [] ∧
      ∀ c ∈ r.citations, Registered ((run_to_report env state).final w).store state.tenant_id c

/-- Every criterion that was scored has evidence, and no other tenant had a
source for it before the run. -/
def Evidenced (w : World) (tenant_id : String) (scored : EvaluationState) : Prop :=
  ∀ r ∈ scored.criteria_results, citation_ids scored r.criteria_id ≠ [] ∧
    ∀ id ∈ citation_ids scored r.criteria_id, ∀ source,
      w.store.citation_sources.get? id = some source → source.tenant_id = tenant_id

theorem cited_result_iff {state scored : EvaluationState} {t t' : World} {r : CriteriaResult}
    (hprepared : Prepared env w t state scored) (hclaims : scored.unsupported_claims = [])
    (hsources : t'.store.citation_sources = t.store.citation_sources)
    (hr : r ∈ scored.criteria_results) :
    (r.citations ≠ [] ∧ ∀ c ∈ r.citations, Registered t'.store state.tenant_id c) ↔
      citation_ids scored r.criteria_id ≠ [] ∧
        ∀ id ∈ citation_ids scored r.criteria_id, ∀ source,
          w.store.citation_sources.get? id = some source → source.tenant_id = state.tenant_id := by
  have hcites := hprepared.cites r hr
  unfold Cites resolve_citations_batch at hcites
  rw [hcites, Ne, List.map_eq_nil_iff, List.forall_mem_map]
  refine and_congr_right fun _ => forall_congr' fun id => imp_congr_right fun hid => ?_
  have hsource := hprepared.supported hclaims id (citation_ids_evidence hid)
  rw [← own_source_iff hprepared.sourced hsource]
  unfold Registered
  rw [hsources]
  have hchunk : (resolve_citation t.store false id).chunk_id = id := by
    unfold resolve_citation
    split <;> rfl
  rw [hchunk]

/-- No score goes unreviewed without evidence exactly when the gate flags the
state for another reason or every criterion has its own evidence. -/
theorem cited_or_flagged_iff (env : Env) (state : EvaluationState) (w : World) :
    CitedOrFlagged env state w ↔
      ∀ scored, (run_to_score env state).result w = .ok scored →
        Flags env ((run_to_score env state).final w).store scored ∨
          Evidenced w state.tenant_id scored := by
  unfold CitedOrFlagged
  apply passed_reports_iff
  intro scored report hscored hflags hreported
  have hprepared := (run_to_score.spec env state w).2 scored hscored
  rw [hreported.results, List.forall_mem_map]
  unfold Evidenced
  refine forall_congr' fun r => imp_congr_right fun hr => ?_
  rw [edited_citations]
  exact cited_result_iff hprepared (supported_of_passed hflags) hreported.sources hr

/-- The price has no evidence, and the report passes. -/
theorem uncited_criterion_passes : ¬ CitedOrFlagged bare_env two_criteria World.start := by
  intro h
  have hfound : (report_in ((run_to_report bare_env two_criteria).result World.start)).map
      (fun report => (report.needs_human_review,
        report.criteria_results.map (fun r => r.citations.length))) = some (false, [1, 0]) := by
    decide +kernel
  obtain ⟨final, report, hfinal, hreport, hpassed, hparts⟩ := passed_with hfound
  have hall := h final report hfinal hreport hpassed
  have hempty : 0 ∈ report.criteria_results.map (fun r => r.citations.length) := by
    rw [hparts]
    simp
  obtain ⟨r, hr, hlength⟩ := List.mem_map.1 hempty
  exact (hall r hr).1 (List.length_eq_zero_iff.1 hlength)

end bid_evaluation.scoring_laws
