-- The law of the total. A result finds its weight under the id of its
-- criterion, where a missing or empty id is read as "criteria"; the weights
-- are stored under the id as it stands, and a later one takes the place of
-- an earlier one.
import BidEvaluation.CostLaws
import BidEvaluation.GateLaws

open dict_lib stepwise bid_evaluation.values bid_evaluation.core bid_evaluation.store_workflow
  bid_evaluation.evaluation_nodes bid_evaluation.endings bid_evaluation.langgraph_runtime
  bid_evaluation.operations bid_evaluation.review_steps bid_evaluation.token_laws
  bid_evaluation.gate_laws bid_evaluation.scoring_laws bid_evaluation.cost_laws

namespace bid_evaluation.total_laws

variable {env : Env} {w : World}

/-! ## The formula -/

/-- The weight that a criterion states. -/
def own_weight (env : Env) (criteria : PyDict) : Rat :=
  ((criteria.getD "weight" (.float 1)).toFloat env.float_of_str).toOption.getD 1

/-- The weight that the gate finds for the result of a criterion. -/
def found_weight (env : Env) (loaded : EvaluationState) (criteria : PyDict) : Rat :=
  (lookupEntry loaded.criteria_weights (criteria_id_of env criteria)).getD 1

/-- The score of each criterion times a weight of the criterion. -/
def weighted (weight : PyDict → Rat) (results : List CriteriaResult) (criteria : List PyDict) : Rat :=
  (List.zipWith (fun r c => r.score * weight c) results criteria).sum

theorem weighted_cons (weight : PyDict → Rat) (r : CriteriaResult) (results : List CriteriaResult)
    (c : PyDict) (criteria : List PyDict) : weighted weight (r :: results) (c :: criteria) =
      r.score * weight c + weighted weight results criteria := by
  unfold weighted
  rw [List.zipWith_cons_cons, List.sum_cons]

/-- The sum over the results, by id, is the sum over the criteria. -/
theorem scored_total_eq (loaded : EvaluationState) {results : List CriteriaResult} {criteria : List PyDict}
    (h : List.Forall₂ (ResultOf env) results criteria) :
    (results.map fun r => r.score * weight_of loaded r).sum =
      weighted (found_weight env loaded) results criteria := by
  induction h with
  | nil => rfl
  | cons hfirst _ ih =>
    rw [List.map_cons, List.sum_cons, weighted_cons, ih]
    unfold weight_of found_weight
    rw [hfirst.id]

theorem weighted_congr {weight weight' : PyDict → Rat} (results : List CriteriaResult)
    {criteria : List PyDict} (h : ∀ c ∈ criteria, weight c = weight' c) :
    weighted weight results criteria = weighted weight' results criteria := by
  induction criteria generalizing results with
  | nil =>
    unfold weighted
    rw [List.zipWith_nil_right, List.zipWith_nil_right]
  | cons c rest ih =>
    cases results with
    | nil => rfl
    | cons r results =>
      rw [weighted_cons, weighted_cons, h c List.mem_cons_self,
        ih results fun c' hc' => h c' (List.mem_cons_of_mem c hc')]

theorem weighted_zero (weight : PyDict → Rat) {results : List CriteriaResult}
    (criteria : List PyDict) (h : ∀ r ∈ results, r.score = 0) : weighted weight results criteria = 0 := by
  induction results generalizing criteria with
  | nil => rfl
  | cons r results ih =>
    cases criteria with
    | nil => rfl
    | cons c rest =>
      rw [weighted_cons, h r List.mem_cons_self,
        ih rest fun r' hr' => h r' (List.mem_cons_of_mem r hr')]
      simp

/-- When one criterion has one point and the others none, the sum is its weight. -/
theorem weighted_single (weight : PyDict → Rat) {results : List CriteriaResult} {criteria : List PyDict}
    {k : Nat} {c : PyDict} (hlength : results.length = criteria.length) (hc : criteria[k]? = some c)
    (hscores : ∀ i r, results[i]? = some r → r.score = if i = k then 1 else 0) :
    weighted weight results criteria = weight c := by
  induction criteria generalizing results k with
  | nil => simp at hc
  | cons c' rest ih =>
    cases results with
    | nil => simp at hlength
    | cons r results =>
      have hfirst := hscores 0 r rfl
      rw [weighted_cons, hfirst]
      cases k with
      | zero =>
        have hzero : ∀ r' ∈ results, r'.score = 0 := by
          intro r' hr'
          obtain ⟨i, hi⟩ := List.getElem?_of_mem hr'
          exact hscores (i + 1) r' (by rw [List.getElem?_cons_succ]; exact hi)
        rw [weighted_zero weight rest hzero]
        simp at hc
        simp [hc]
      | succ k =>
        have hlater : ∀ i r', results[i]? = some r' → r'.score = if i = k then 1 else 0 := by
          intro i r' hr'
          rw [hscores (i + 1) r' (by rw [List.getElem?_cons_succ]; exact hr')]
          simp
        rw [ih (by simpa using hlength) (by simpa using hc) hlater]
        simp

/-! ## The run -/

/-- The nodes from the context to the gate. -/
def run_to_gate (env : Env) (state : EvaluationState) : Act EvaluationState := do
  let loaded ← node_load_context env state
  let scored ← run_to_score env loaded
  node_quality_gate env scored

/-- A loop that is not stopped has a result for each criterion, in order. -/
theorem scoring_loop.in_order {d : Nat} {acc : Scoring} (state : EvaluationState) (defs : List PyDict)
    (h : Turned env d acc w) :
    Meets AnyStep (defs.foldlM (score_criteria env state) acc) w (fun r _ => ∀ acc', r = .ok acc' →
      acc'.cost_exceeded = false → ∃ results,
        acc'.criteria_results = acc.criteria_results ++ results ∧
          List.Forall₂ (ResultOf env) results defs) := by
  induction defs generalizing acc w with
  | nil =>
    rw [List.foldlM_nil, meets_pure]
    rintro _ ⟨⟩ -
    exact ⟨[], (List.append_nil _).symm, List.Forall₂.nil⟩
  | cons criteria rest ih =>
    rw [List.foldlM_cons]
    refine (score_criteria.turns state criteria h).bind ?_ (by rintro e t - _ ⟨⟩)
    intro acc₁ t₁ hends
    rcases hends acc₁ rfl with ⟨-, hstops, -⟩ | ⟨hturned, result, hresults, hresult⟩
    · refine (blocked_loop.spec state hstops rest t₁).post ?_
      rintro r t ⟨hr, -⟩ acc' hok hgoes
      rw [hr] at hok
      cases hok
      rw [hstops] at hgoes
      cases hgoes
    · refine (ih hturned).post ?_
      intro r t hrest acc' hok hgoes
      obtain ⟨results, hmore, hall⟩ := hrest acc' hok hgoes
      refine ⟨result :: results, ?_, List.Forall₂.cons hresult hall⟩
      rw [hmore, hresults, List.append_assoc]
      rfl

/-- What the nodes before the gate keep of the context. -/
structure SameContext (loaded state : EvaluationState) : Prop where
  criteria_defs : state.criteria_defs = loaded.criteria_defs
  criteria_weights : state.criteria_weights = loaded.criteria_weights
  hard_constraint_pass : state.hard_constraint_pass = loaded.hard_constraint_pass

theorem SameContext.criteria {loaded state : EvaluationState} (h : SameContext loaded state) :
    criteria_of state = criteria_of loaded := by
  unfold criteria_of
  rw [h.criteria_defs]

theorem retrieve_evidence.context (env : Env) (state : EvaluationState) (w : World) :
    Meets AnyStep (node_retrieve_evidence env state) w (fun r _ => ∀ retrieved, r = .ok retrieved →
      SameContext state retrieved) := by
  unfold node_retrieve_evidence
  refine (gather_evidence.reads env state.criteria_defs w).bind ?_ (by rintro e t - _ ⟨⟩)
  intro found t _
  refine (register_sources.spec env state _ _ t).bind ?_ (by rintro e t' - _ ⟨⟩)
  intro _ t' _
  rw [meets_pure]
  rintro _ ⟨⟩
  exact ⟨rfl, rfl, rfl⟩

theorem score_with_llm.in_order (env : Env) (state : EvaluationState) (w : World) :
    Meets AnyStep (node_score_with_llm env state) w (fun r _ => ∀ scored, r = .ok scored →
      SameContext state scored ∧ (scored.cost_exceeded = false →
        List.Forall₂ (ResultOf env) scored.criteria_results (criteria_of state))) := by
  have hstart : Turned env w.draws ⟨⟨0, false, false⟩, [], [], false⟩ w :=
    ⟨⟨rfl, rfl, rfl⟩, fun i r hr => by simp at hr⟩
  unfold node_score_with_llm
  refine (scoring_loop.in_order state _ hstart).bind ?_ (by rintro e t - _ ⟨⟩)
  intro acc t hends
  rw [meets_bind, meets_read, then_ok, meets_pure]
  rintro _ ⟨⟩
  refine ⟨⟨rfl, rfl, rfl⟩, fun hgoes => ?_⟩
  obtain ⟨results, hresults, hall⟩ := hends acc rfl hgoes
  rw [List.nil_append] at hresults
  rw [hresults]
  exact hall

/-- The total of the gate, by the weights that it finds. -/
structure Totals (env : Env) (loaded gated : EvaluationState) : Prop where
  results : gated.cost_exceeded = false →
    List.Forall₂ (ResultOf env) gated.criteria_results (criteria_of loaded)
  total : loaded.hard_constraint_pass = true → gated.cost_exceeded = false →
    gated.total_score = weighted (found_weight env loaded) gated.criteria_results (criteria_of loaded)

theorem quality_gate.keeps (env : Env) (scored : EvaluationState) (w : World) :
    Meets AnyStep (node_quality_gate env scored) w (fun r _ => ∃ gated, r = .ok gated ∧
      gated.total_score = reported_total scored ∧
        gated.criteria_results = scored.criteria_results ∧
          gated.cost_exceeded = scored.cost_exceeded) := by
  unfold node_quality_gate
  rw [meets_bind, meets_read, then_ok]
  refine (issue_token.keeps_sources env scored _ w).bind ?_
    (by rintro e t ⟨⟨interrupt, he⟩, -⟩; cases he)
  intro interrupt t _
  rw [meets_pure]
  exact ⟨_, rfl, rfl, rfl, rfl⟩

theorem score_and_gate.spec (env : Env) (loaded : EvaluationState) (w : World) :
    Meets AnyStep (run_to_score env loaded >>= node_quality_gate env) w
      (fun r _ => ∀ gated, r = .ok gated → Totals env loaded gated) := by
  unfold run_to_score
  rw [then_assoc]
  refine (retrieve_evidence.context env loaded w).bind ?_ (by rintro e t - _ ⟨⟩)
  intro retrieved t hcontext
  have hretrieved := hcontext retrieved rfl
  unfold node_evaluate_rules
  rw [then_assoc, meets_bind, meets_pure, then_ok]
  refine (score_with_llm.in_order env _ t).bind ?_ (by rintro e t' - _ ⟨⟩)
  intro scored t' hscored
  obtain ⟨hsame, hall⟩ := hscored scored rfl
  refine (quality_gate.keeps env scored t').post ?_
  rintro r t'' ⟨gated, hok, htotal, hresults, hexceeded⟩ gated' hok'
  rw [hok] at hok'
  cases hok'
  have hcriteria : ∀ rules : EvaluationState, rules.criteria_defs = retrieved.criteria_defs →
      criteria_of rules = criteria_of loaded := by
    intro rules hrules
    unfold criteria_of
    rw [hrules, hretrieved.criteria_defs]
  have hresult : gated.cost_exceeded = false →
      List.Forall₂ (ResultOf env) gated.criteria_results (criteria_of loaded) := by
    intro hgoes
    rw [hexceeded] at hgoes
    rw [hresults, ← hcriteria { retrieved with redline_conflict := _ } rfl]
    exact hall hgoes
  refine ⟨hresult, fun hpass hgoes => ?_⟩
  have hhard : scored.hard_constraint_pass = true := by
    rw [hsame.hard_constraint_pass]
    exact hretrieved.hard_constraint_pass.trans hpass
  have hweights : ∀ r, weight_of scored r = weight_of loaded r := by
    intro r
    unfold weight_of
    rw [hsame.criteria_weights]
    show (lookupEntry retrieved.criteria_weights _).getD 1 = _
    rw [hretrieved.criteria_weights]
  rw [htotal]
  unfold reported_total scored_total
  rw [if_pos hhard, ← hresults, ← scored_total_eq loaded (hresult hgoes)]
  simp only [hweights]

/-! ## A run with chosen scores -/

/-- No evidence and no budget; one criterion has one point. -/
def one_point (env : Env) (d k : Nat) : Env :=
  { env with
    retrieve_evidence := fun _ => .ok []
    apply_report_budget := fun evidence => evidence
    llm_score_criteria := fun n => .ok ⟨if n = d + k then 1 else 0, none, none, none, 0⟩
    task_token_budget := 0 }

theorem no_evidence_setEntry {found : List (String × List Evidence)} (cid : String)
    (h : found.flatMap Prod.snd = []) : (setEntry found cid []).flatMap Prod.snd = [] := by
  induction found with
  | nil => rfl
  | cons entry rest ih =>
    obtain ⟨key, evidence⟩ := entry
    rw [List.flatMap_cons, List.append_eq_nil_iff] at h
    obtain ⟨hfirst, hrest⟩ := h
    unfold setEntry
    split
    · exact hrest
    · rw [List.flatMap_cons, List.append_eq_nil_iff]
      exact ⟨hfirst, ih hrest⟩

theorem gather_evidence.none (h : ∀ n, env.retrieve_evidence n = .ok []) (criteria : List PyDict)
    {found : List (String × List Evidence)} (hfound : found.flatMap Prod.snd = []) (w : World) :
    Meets AnyStep (criteria.foldlM (fun found c => do
        let n ← draw
        let evidence ← lift (env.retrieve_evidence n)
        pure (setEntry found (criteria_id_of env c) evidence)) found) w (fun r t =>
      (∃ found', r = .ok found' ∧ found'.flatMap Prod.snd = []) ∧
        t.draws = w.draws + criteria.length) := by
  induction criteria generalizing found w with
  | nil =>
    rw [List.foldlM_nil, meets_pure]
    exact ⟨⟨found, rfl, hfound⟩, rfl⟩
  | cons c rest ih =>
    rw [List.foldlM_cons, then_assoc]
    refine (draw.reads w).bind ?_ (by rintro e t ⟨he, -⟩; cases he)
    rintro n t ⟨-, rfl⟩
    rw [then_assoc, meets_bind, meets_lift, h n, then_ok, meets_bind, meets_pure, then_ok]
    refine (ih (no_evidence_setEntry _ hfound) _).post ?_
    rintro r t ⟨hr, hdraws⟩
    refine ⟨hr, hdraws.trans ?_⟩
    rw [List.length_cons]
    show w.draws + 1 + rest.length = w.draws + (rest.length + 1)
    omega

theorem retrieve_nothing (h : ∀ n, env.retrieve_evidence n = .ok [])
    (hbudget : ∀ evidence, env.apply_report_budget evidence = evidence) (state : EvaluationState)
    (w : World) :
    Meets AnyStep (node_retrieve_evidence env state) w (fun r t => (∃ retrieved, r = .ok retrieved) ∧
      t.draws = w.draws + (criteria_of state).length) := by
  unfold node_retrieve_evidence gather_evidence
  refine (gather_evidence.none h _ (by rfl) w).bind ?_ (by rintro e t ⟨⟨found, he, -⟩, -⟩; cases he)
  rintro found t ⟨⟨found', hok, hnone⟩, hdraws⟩
  cases hok
  dsimp only
  rw [hbudget, hnone]
  exact ⟨trivial, ⟨_, rfl⟩, hdraws⟩

/-- A loop whose criteria can be read and whose LLM always answers does not raise. -/
theorem scoring_loop.answers (hllm : ∀ n, ∃ answer, env.llm_score_criteria n = .ok answer)
    (state : EvaluationState) (defs : List PyDict)
    (hmax : ∀ c ∈ defs, ∃ m, (c.getD "max_score" (.float 20)).toFloat env.float_of_str = .ok m)
    (acc : Scoring) (w : World) :
    Meets AnyStep (defs.foldlM (score_criteria env state) acc) w (fun r _ => ∃ acc', r = .ok acc') := by
  induction defs generalizing acc w with
  | nil =>
    rw [List.foldlM_nil, meets_pure]
    exact ⟨acc, rfl⟩
  | cons c rest ih =>
    have hturn : Meets AnyStep (score_criteria env state acc c) w (fun r _ => ∃ acc', r = .ok acc') := by
      unfold score_criteria
      by_cases hstopped : acc.cost_exceeded = true
      · rw [if_pos hstopped, meets_pure]
        exact ⟨acc, rfl⟩
      obtain ⟨m, hm⟩ := hmax c List.mem_cons_self
      rw [if_neg hstopped, meets_bind, meets_lift, hm, then_ok]
      rcases check_budget env acc.tracker with ⟨status, tracker⟩
      dsimp only
      by_cases hblocked : status = .blocked
      · rw [if_pos hblocked, meets_pure]
        exact ⟨_, rfl⟩
      rw [if_neg hblocked]
      refine (draw.reads w).bind ?_ (by rintro e t ⟨he, -⟩; cases he)
      rintro n t -
      obtain ⟨answer, hanswer⟩ : ∃ answer, (if status = .degrade then
          .ok (env.mock_score_criteria n) else env.llm_score_criteria n) = .ok answer := by
        split
        · exact ⟨_, rfl⟩
        · exact hllm n
      rw [meets_bind, meets_lift, hanswer, then_ok, meets_bind, meets_read, then_ok, meets_pure]
      exact ⟨_, rfl⟩
    rw [List.foldlM_cons]
    refine hturn.bind ?_ (by rintro e t ⟨acc', he⟩; cases he)
    intro acc' t _
    exact ih (fun c' hc' => hmax c' (List.mem_cons_of_mem c hc')) acc' t

/-- Without a budget every check is `ok`. -/
theorem unlimited (h : env.task_token_budget ≤ 0) (d i : Nat) : budget_status env d i = .ok := by
  have hfree : ∀ i, (tracker_after env d i).blocked = false := by
    intro i
    induction i with
    | zero => rfl
    | succ i ih =>
      rw [tracker_after]
      dsimp only
      unfold check_budget
      rw [if_neg (by simp [ih]), if_pos h]
      dsimp only
      split
      · exact ih
      · exact ih
  unfold budget_status check_budget
  rw [if_neg (by simp [hfree i]), if_pos h]

/-- The run reaches the gate, and gives its one point to one criterion. -/
theorem one_point.gated (env : Env) (loaded : EvaluationState) (w : World) (k : Nat)
    (hmax : ∀ c ∈ criteria_of loaded,
      ∃ m, (c.getD "max_score" (.float 20)).toFloat env.float_of_str = .ok m) :
    Meets AnyStep (run_to_score (one_point env (w.draws + (criteria_of loaded).length) k) loaded >>=
        node_quality_gate (one_point env (w.draws + (criteria_of loaded).length) k)) w
      (fun r _ => ∃ gated, r = .ok gated ∧ gated.cost_exceeded = false ∧
        gated.criteria_results.length = (criteria_of loaded).length ∧
          ∀ i r, gated.criteria_results[i]? = some r → r.score = if i = k then 1 else 0) := by
  generalize henv : one_point env (w.draws + (criteria_of loaded).length) k = env'
  have hllm : ∀ n, env'.llm_score_criteria n =
      .ok ⟨if n = w.draws + (criteria_of loaded).length + k then 1 else 0, none, none, none, 0⟩ := by
    rw [← henv]
    exact fun _ => rfl
  have hlimit : env'.task_token_budget ≤ 0 := by
    rw [← henv]
    exact Int.le_refl 0
  have hfloat : env'.float_of_str = env.float_of_str := by
    rw [← henv]
    rfl
  have hnothing : Meets AnyStep (node_retrieve_evidence env' loaded) w _ :=
    retrieve_nothing (by rw [← henv]; exact fun _ => rfl) (by rw [← henv]; exact fun _ => rfl) loaded w
  clear henv
  unfold run_to_score
  rw [then_assoc]
  refine (hnothing.and (retrieve_evidence.context env' loaded w)).bind ?_
    (by rintro e t ⟨⟨⟨retrieved, he⟩, -⟩, -⟩; cases he)
  rintro retrieved t ⟨⟨-, hdraws⟩, hcontext⟩
  have hretrieved := (hcontext retrieved rfl).criteria
  unfold node_evaluate_rules
  rw [then_assoc, meets_bind, meets_pure, then_ok]
  generalize hruled : ({ retrieved with redline_conflict := _ } : EvaluationState) = ruled
  have hcriteria : criteria_of ruled = criteria_of loaded := by
    rw [← hretrieved, ← hruled]
    rfl
  have hscores : Meets AnyStep (node_score_with_llm env' ruled) t (fun r _ => ∃ scored, r = .ok scored) := by
    unfold node_score_with_llm
    refine (scoring_loop.answers (fun n => ⟨_, hllm n⟩) ruled (criteria_of ruled) ?_ _ t).bind ?_
      (by rintro e t' ⟨acc, he⟩; cases he)
    · rw [hcriteria, hfloat]
      exact hmax
    · rintro acc t' -
      rw [meets_bind, meets_read, then_ok, meets_pure]
      exact ⟨_, rfl⟩
  refine (hscores.and (score_with_llm.obeys env' ruled t)).bind ?_
    (by rintro e t' ⟨⟨scored, he⟩, -⟩; cases he)
  rintro scored t' ⟨-, hobeys⟩
  have hobeyed := hobeys scored rfl
  have hall : ¬scored.criteria_results.length < (criteria_of ruled).length := by
    intro hfew
    have hblocked := hobeyed.stops hfew
    rw [unlimited hlimit] at hblocked
    cases hblocked
  have hfew := hobeyed.few
  refine (quality_gate.keeps env' scored t').post ?_
  rintro r t'' ⟨gated, hok, -, hresults, hexceeded⟩
  refine ⟨gated, hok, ?_, ?_, ?_⟩
  · rw [hexceeded, ← Bool.not_eq_true, hobeyed.flag]
    exact hall
  · rw [hresults, ← hcriteria]
    omega
  · intro i result hresult
    rw [hresults] at hresult
    rcases hobeyed.turns i result hresult with ⟨-, answer, hanswer, hscore⟩ | ⟨hdegrade, -⟩
    · rw [hllm, hdraws] at hanswer
      cases hanswer
      rw [hscore]
      simp
    · rw [unlimited hlimit] at hdegrade
      cases hdegrade

/-! ## The law -/

/-- Environments that read numbers and write texts in the same way. The
evidence, the answers and the budget can be any. -/
structure SameReading (env env' : Env) : Prop where
  float_of_str : env'.float_of_str = env.float_of_str
  repr : env'.repr = env.repr

/-- The total of a rule pack is the sum over its criteria, in order, of score
times own weight, whatever is retrieved and answered. -/
def FollowsFormula (env : Env) (state : EvaluationState) (w : World) : Prop :=
  ∀ env', SameReading env env' → ∀ loaded gated,
    (node_load_context env' state).result w = .ok loaded →
    (run_to_gate env' state).result w = .ok gated →
    loaded.hard_constraint_pass = true → gated.cost_exceeded = false →
      gated.total_score = weighted (own_weight env') gated.criteria_results (criteria_of loaded)

/-- Every criterion finds its own weight, where each one can be scored. -/
def OwnWeights (env : Env) (state : EvaluationState) (w : World) : Prop :=
  ∀ loaded, (node_load_context env state).result w = .ok loaded →
    loaded.hard_constraint_pass = true →
    (∀ c ∈ criteria_of loaded,
      ∃ m, (c.getD "max_score" (.float 20)).toFloat env.float_of_str = .ok m) →
    ∀ c ∈ criteria_of loaded, found_weight env loaded c = own_weight env c

/-- A criterion with a result has a largest score that can be read. -/
theorem all_readable {results : List CriteriaResult} {criteria : List PyDict}
    (h : List.Forall₂ (ResultOf env) results criteria) : ∀ c ∈ criteria,
      ∃ m, (c.getD "max_score" (.float 20)).toFloat env.float_of_str = .ok m := by
  induction h with
  | nil => simp
  | cons hfirst _ ih =>
    intro c hc
    rcases List.mem_cons.1 hc with rfl | hin
    · exact ⟨_, hfirst.max_score⟩
    · exact ih c hin

theorem load_context.same {env' : Env} (h : SameReading env env') (state : EvaluationState) :
    node_load_context env' state = node_load_context env state := by
  have hweights : ∀ defs, criteria_weights_of env' defs = criteria_weights_of env defs := by
    intro defs
    unfold criteria_weights_of
    rw [h.float_of_str, h.repr]
  unfold node_load_context
  simp only [hweights]

/-- The context is loaded without a write. -/
theorem run_to_gate_eq {state loaded : EvaluationState}
    (h : (node_load_context env state).result w = .ok loaded) :
    (run_to_gate env state).result w =
      (run_to_score env loaded >>= node_quality_gate env).result w := by
  have hstill : (node_load_context env state).final w = w := by
    unfold node_load_context
    rw [final_read]
    dsimp only
    unfold lift
    cases criteria_weights_of env _ <;> rfl
  unfold run_to_gate
  rw [result_bind h, hstill]

/-- The total follows the formula exactly when each criterion finds its own weight. -/
theorem total_follows_formula_iff (env : Env) (state : EvaluationState) (w : World) :
    FollowsFormula env state w ↔ OwnWeights env state w := by
  constructor
  · intro hfollows loaded hload hpass hmax c hc
    obtain ⟨k, hk⟩ := List.getElem?_of_mem hc
    have hsame : SameReading env (one_point env (w.draws + (criteria_of loaded).length) k) := ⟨rfl, rfl⟩
    have hload' := hload
    rw [← load_context.same hsame] at hload'
    obtain ⟨gated, hgated, hgoes, hlength, hscores⟩ := (one_point.gated env loaded w k hmax).2
    have htotals := (score_and_gate.spec _ loaded w).2 gated hgated
    have htotal := hfollows _ hsame loaded gated hload' (by rw [run_to_gate_eq hload']; exact hgated)
      hpass hgoes
    rw [htotals.total hpass hgoes, weighted_single _ hlength hk hscores,
      weighted_single _ hlength hk hscores] at htotal
    exact htotal
  · intro hown env' hsame loaded gated hload hgated hpass hgoes
    rw [run_to_gate_eq hload] at hgated
    have htotals := (score_and_gate.spec env' loaded w).2 gated hgated
    have hresults := htotals.results hgoes
    rw [htotals.total hpass hgoes]
    apply weighted_congr
    rw [load_context.same hsame] at hload
    have hmax := all_readable hresults
    rw [hsame.float_of_str] at hmax
    intro c hc
    have hweight := hown loaded hload hpass hmax c hc
    unfold found_weight own_weight criteria_id_of at hweight ⊢
    rw [hsame.float_of_str, hsame.repr]
    exact hweight

/-- A rule pack whose one criterion has a weight and no id. -/
def nameless_pack : World :=
  { World.start with store := { World.start.store with
      rule_packs := World.start.store.rule_packs.put ⟨"v1", "tenant",
        .dict [("criteria", .list [.dict [("max_score", .int 20), ("weight", .int 2)]])]⟩ } }

def a_bid : EvaluationState :=
  initial_state "tenant" "ev" "trace" "thread" "job" { no_payload with
    rule_pack_version := "v1", evaluation_scope := ⟨["bid"], false⟩ }

/-- Ten points of weight two give a total of ten. -/
theorem nameless_criterion_loses_its_weight : ¬FollowsFormula calm_env a_bid nameless_pack := by
  intro h
  have hrun : ((node_load_context calm_env a_bid).result nameless_pack).toOption.bind (fun loaded =>
      ((run_to_gate calm_env a_bid).result nameless_pack).toOption.map fun gated =>
        (loaded.hard_constraint_pass, gated.cost_exceeded, gated.total_score,
          weighted (own_weight calm_env) gated.criteria_results (criteria_of loaded))) =
      some (true, false, 10, 20) := by decide +kernel
  obtain ⟨loaded, hload, hgates⟩ := Option.bind_eq_some_iff.1 hrun
  obtain ⟨gated, hgated, hparts⟩ := Option.map_eq_some_iff.1 hgates
  simp only [Prod.mk.injEq] at hparts
  obtain ⟨hpass, hgoes, htotal, hformula⟩ := hparts
  have hsum := h calm_env ⟨rfl, rfl⟩ loaded gated (ok_of_toOption hload) (ok_of_toOption hgated)
    hpass hgoes
  rw [htotal, hformula] at hsum
  exact absurd hsum (by decide +kernel)

end bid_evaluation.total_laws
