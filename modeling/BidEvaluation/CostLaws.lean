-- The laws of the cost budget. Its two latches only close: a check never goes
-- back to an earlier status, the LLM is not asked once the warning limit is
-- reached, and the loop over the criteria stops at the first blocked check.
import BidEvaluation.ScoringLaws

open dict_lib stepwise bid_evaluation.values bid_evaluation.core bid_evaluation.evaluation_nodes
  bid_evaluation.endings bid_evaluation.review_steps bid_evaluation.operations
  bid_evaluation.token_laws bid_evaluation.scoring_laws

namespace bid_evaluation.cost_laws

variable {env : Env} {w : World} {d i : Nat}

/-! ## The latches -/

def rank : BudgetStatus → Nat
  | .ok => 0
  | .degrade => 1
  | .blocked => 2

/-- The least status that the next check can return. -/
def latch (t : CostBudgetTracker) : Nat := if t.blocked then 2 else if t.degraded then 1 else 0

theorem check_total (env : Env) (t : CostBudgetTracker) :
    (check_budget env t).2.total_tokens = t.total_tokens := by
  unfold check_budget
  split
  · rfl
  split
  · rfl
  split
  · rfl
  split
  · rfl
  split <;> rfl

/-- A check returns no less than the latches say, and they then say what it
returned. -/
theorem check_latches (hbudget : 0 < env.task_token_budget) (t : CostBudgetTracker) :
    latch t ≤ rank (check_budget env t).1 ∧
      latch (check_budget env t).2 = rank (check_budget env t).1 := by
  unfold check_budget
  by_cases hblocked : t.blocked = true
  · simp [hblocked, latch, rank]
  rw [if_neg hblocked, if_neg (not_le.2 hbudget)]
  split
  · exact ⟨by simp [latch, rank, hblocked]; split <;> omega, rfl⟩
  by_cases hdegraded : t.degraded = true
  · simp [hblocked, hdegraded, latch, rank]
  rw [if_neg hdegraded]
  split
  · simp [hblocked, hdegraded, latch, rank]
  · simp [hblocked, hdegraded, latch, rank]

/-- The warning limit is reached, so the check does not return `ok`. -/
theorem check_warns (hbudget : 0 < env.task_token_budget) {t : CostBudgetTracker}
    (h : budget_limit env.task_token_budget env.task_cost_warn_ratio ≤ t.total_tokens) :
    (check_budget env t).1 ≠ .ok := by
  unfold check_budget
  split
  · simp
  rw [if_neg (not_le.2 hbudget)]
  split
  · simp
  split
  · simp
  · simp

theorem latch_after (env : Env) (hbudget : 0 < env.task_token_budget) (d i : Nat) :
    latch (tracker_after env d (i + 1)) = rank (budget_status env d i) := by
  have hlatch := (check_latches hbudget (tracker_after env d i)).2
  unfold budget_status
  rw [← hlatch, tracker_after]
  dsimp only
  split <;> rfl

theorem status_forward (hbudget : 0 < env.task_token_budget) (d : Nat) {i j : Nat} (h : i ≤ j) :
    rank (budget_status env d i) ≤ rank (budget_status env d j) := by
  induction j, h using Nat.le_induction with
  | base => exact Nat.le_refl _
  | succ j _ ih =>
    apply ih.trans
    rw [← latch_after env hbudget]
    exact (check_latches hbudget _).1

/-! ## The tokens -/

/-- The tokens that are recorded for a criterion. -/
def usage (env : Env) (d i : Nat) : Int :=
  match answer_of env (budget_status env d i) (d + i) with
  | .ok answer => answer.total_tokens
  | .error _ => 0

/-- The tokens of the first criteria. -/
def spent (env : Env) (d k : Nat) : Int := ((List.range k).map (usage env d)).sum

theorem tracker_total (env : Env) (d k : Nat) : (tracker_after env d k).total_tokens = spent env d k := by
  induction k with
  | zero => rfl
  | succ k ih =>
    have hspent : spent env d (k + 1) = spent env d k + usage env d k := by
      unfold spent
      rw [List.range_succ, List.map_append, List.sum_append]
      simp
    have htotal := check_total env (tracker_after env d k)
    rw [hspent, ← ih, ← htotal, tracker_after]
    unfold usage budget_status
    dsimp only
    cases answer_of env (check_budget env (tracker_after env d k)).1 (d + k) with
    | ok answer => rfl
    | error e => exact (Int.add_zero _).symm

/-! ## The loop -/

/-- Who scored a criterion: the LLM on `ok`, the mock on `degrade`. -/
def Turn (env : Env) (d i : Nat) (r : CriteriaResult) : Prop :=
  (budget_status env d i = .ok ∧ ∃ answer, env.llm_score_criteria (d + i) = .ok answer ∧
    r.score = answer.score) ∨
  (budget_status env d i = .degrade ∧ r.score = (env.mock_score_criteria (d + i)).score)

/-- A result is that of a criterion. -/
structure ResultOf (env : Env) (r : CriteriaResult) (criteria : PyDict) : Prop where
  id : r.criteria_id = criteria_id_of env criteria
  max_score : (criteria.getD "max_score" (.float 20)).toFloat env.float_of_str = .ok r.max_score

/-- What the loop over some criteria leaves. -/
structure Obeys (env : Env) (d n : Nat) (results : List CriteriaResult) (cost_exceeded : Bool)
    (cost_total_tokens : Int) : Prop where
  few : results.length ≤ n
  turns : ∀ i r, results[i]? = some r → Turn env d i r
  stops : results.length < n → budget_status env d results.length = .blocked
  blocked : ∀ i, budget_status env d i = .blocked → results.length ≤ i
  flag : cost_exceeded = true ↔ results.length < n
  total : cost_total_tokens = spent env d results.length

/-- The loop has scored the first criteria, each in its turn. -/
structure Turned (env : Env) (d : Nat) (acc : Scoring) (t : World) : Prop where
  going : Going env d acc.criteria_results.length acc t
  turns : ∀ i r, acc.criteria_results[i]? = some r → Turn env d i r

theorem not_blocked {results : List CriteriaResult} (h : ∀ i r, results[i]? = some r → Turn env d i r)
    (i : Nat) (hblocked : budget_status env d i = .blocked) : results.length ≤ i := by
  by_contra hlt
  have hin : i < results.length := by omega
  rcases h i results[i] (List.getElem?_eq_getElem hin) with ⟨hok, -⟩ | ⟨hdegrade, -⟩
  · rw [hblocked] at hok
    cases hok
  · rw [hblocked] at hdegrade
    cases hdegrade

/-- One turn: the check blocks it, or there is a new result. -/
theorem score_criteria.turns {acc : Scoring} (state : EvaluationState) (criteria : PyDict)
    (h : Turned env d acc w) :
    Meets AnyStep (score_criteria env state acc criteria) w (fun r t => ∀ acc', r = .ok acc' →
      (budget_status env d acc.criteria_results.length = .blocked ∧ acc'.cost_exceeded = true ∧
        acc'.criteria_results = acc.criteria_results ∧
          acc'.tracker.total_tokens = spent env d acc.criteria_results.length) ∨
      (Turned env d acc' t ∧ ∃ result, acc'.criteria_results = acc.criteria_results ++ [result] ∧
        ResultOf env result criteria)) := by
  have hspent := tracker_total env d acc.criteria_results.length
  unfold score_criteria
  rw [if_neg (by simp [h.going.goes]), meets_bind, meets_lift]
  rcases hmax : (criteria.getD "max_score" (.float 20)).toFloat env.float_of_str with e | max_score
  · rintro _ ⟨⟩
  rw [then_ok, h.going.tracker]
  have hstatus : (check_budget env (tracker_after env d acc.criteria_results.length)).1 =
      budget_status env d acc.criteria_results.length := rfl
  have htotal := check_total env (tracker_after env d acc.criteria_results.length)
  have hnext := tracker_after.eq_2 env d acc.criteria_results.length
  rcases hcheck : check_budget env (tracker_after env d acc.criteria_results.length) with
    ⟨status, tracker⟩
  rw [hcheck] at hstatus htotal hnext
  dsimp only at hstatus htotal hnext ⊢
  by_cases hblocked : status = .blocked
  · rw [if_pos hblocked, meets_pure]
    rintro _ ⟨⟩
    exact .inl ⟨hstatus ▸ hblocked, rfl, rfl, htotal.trans hspent⟩
  rw [if_neg hblocked]
  refine (draw.reads w).bind ?_ (by rintro e t ⟨he, -⟩; cases he)
  rintro n t ⟨⟨⟩, rfl⟩
  rw [meets_bind, meets_lift, h.going.draws]
  rcases hanswer : answer_of env status (d + acc.criteria_results.length) with e | answer
  · unfold answer_of at hanswer
    rw [hanswer]
    rintro _ ⟨⟩
  rw [hanswer] at hnext
  have hasked := hanswer
  unfold answer_of at hanswer
  rw [hanswer, then_ok, meets_bind, meets_read, then_ok, meets_pure]
  rintro _ ⟨⟩
  have hturn : ∀ result : CriteriaResult, result.score = answer.score →
      Turn env d acc.criteria_results.length result := by
    intro result hscore
    unfold Turn
    rw [← hstatus]
    cases status with
    | ok => exact .inl ⟨rfl, answer, hasked, hscore⟩
    | degrade =>
      cases hasked
      exact .inr ⟨rfl, hscore⟩
    | blocked => exact absurd rfl hblocked
  refine .inr ⟨⟨?_, ?_⟩, _, rfl, rfl, hmax⟩
  · dsimp only
    rw [List.length_append, List.length_singleton]
    refine ⟨rfl, hnext.symm, ?_⟩
    show d + acc.criteria_results.length + 1 = d + (acc.criteria_results.length + 1)
    omega
  · intro i r hr
    dsimp only at hr
    by_cases hi : i < acc.criteria_results.length
    · rw [List.getElem?_append_left hi] at hr
      exact h.turns i r hr
    · rw [List.getElem?_append_right (by omega)] at hr
      obtain ⟨hzero, hsame⟩ := List.getElem?_eq_some_iff.1 hr
      rw [List.length_singleton] at hzero
      have hlast : i = acc.criteria_results.length := by omega
      subst hlast
      simp only [Nat.sub_self, List.getElem_cons_zero] at hsame
      exact hturn r (by rw [← hsame])

theorem scoring_loop.turns {acc : Scoring} (state : EvaluationState) (defs : List PyDict)
    (h : Turned env d acc w) :
    Meets AnyStep (defs.foldlM (score_criteria env state) acc) w (fun r _ => ∀ acc', r = .ok acc' →
      Obeys env d (acc.criteria_results.length + defs.length) acc'.criteria_results
        acc'.cost_exceeded acc'.tracker.total_tokens) := by
  induction defs generalizing acc w with
  | nil =>
    rw [List.foldlM_nil, meets_pure]
    rintro _ ⟨⟩
    rw [List.length_nil, Nat.add_zero]
    refine ⟨Nat.le_refl _, h.turns, ?_, not_blocked h.turns, ?_, ?_⟩
    · omega
    · simp [h.going.goes]
    · rw [h.going.tracker, tracker_total]
  | cons criteria rest ih =>
    rw [List.foldlM_cons]
    refine (score_criteria.turns state criteria h).bind ?_ (by rintro e t - _ ⟨⟩)
    intro acc₁ t₁ hends
    rw [List.length_cons]
    rcases hends acc₁ rfl with ⟨hblocked, hstops, hresults, htotal⟩ | ⟨hturned, result, hresults, -⟩
    · refine (blocked_loop.spec state hstops rest t₁).post ?_
      rintro r t ⟨hr, -⟩ acc' hok
      rw [hr] at hok
      cases hok
      rw [hresults]
      refine ⟨by omega, h.turns, fun _ => hblocked, not_blocked h.turns, ?_, htotal⟩
      exact iff_of_true hstops (by omega)
    · have hnext := ih hturned
      rw [hresults, List.length_append, List.length_singleton] at hnext
      have hlength : acc.criteria_results.length + 1 + rest.length =
          acc.criteria_results.length + (rest.length + 1) := by omega
      rw [hlength] at hnext
      exact hnext

/-! ## The node -/

/-- The loop of the node over the criteria. -/
theorem score_with_llm.obeys (env : Env) (state : EvaluationState) (w : World) :
    Meets AnyStep (node_score_with_llm env state) w (fun r _ => ∀ scored, r = .ok scored →
      Obeys env w.draws (criteria_of state).length scored.criteria_results scored.cost_exceeded
        scored.cost_total_tokens) := by
  have hstart : Turned env w.draws ⟨⟨0, false, false⟩, [], [], false⟩ w :=
    ⟨⟨rfl, rfl, rfl⟩, fun i r hr => by simp at hr⟩
  unfold node_score_with_llm
  refine (scoring_loop.turns state _ hstart).bind ?_ (by rintro e t - _ ⟨⟩)
  intro acc t hends
  have hobeys := hends acc rfl
  rw [List.length_nil, Nat.zero_add] at hobeys
  rw [meets_bind, meets_read, then_ok, meets_pure]
  rintro _ ⟨⟩
  exact hobeys

/-! ## Calls that are not made -/

/-- The LLM answers in another way. -/
def answering (env : Env) (llm : Nat → Except PyErr LlmResult) : Env :=
  { env with llm_score_criteria := llm }

/-- Two programs do the same from one state, step by step. -/
theorem bind_same {α β : Type} {m m' : Act α} {f f' : α → Act β} (h : m w = m' w)
    (hrest : ∀ a, m.result w = .ok a → f a (m.final w) = f' a (m.final w)) :
    (m >>= f) w = (m' >>= f') w := by
  show Prog.andThen m f w = Prog.andThen m' f' w
  unfold Prog.result Prog.final at hrest
  unfold Prog.andThen
  rw [← h]
  rcases hm : m w with ⟨l, e | a⟩
  · rfl
  · rw [hm] at hrest
    dsimp only at hrest ⊢
    rw [hrest a rfl]

/-- Once the warning limit is reached, a turn does not ask the LLM. -/
theorem score_criteria.unasked {llm : Nat → Except PyErr LlmResult} {acc : Scoring} {j : Nat}
    (state : EvaluationState) (criteria : PyDict) (hgoing : Going env d j acc w)
    (hsame : budget_status env d j = .ok → llm (d + j) = env.llm_score_criteria (d + j)) :
    score_criteria (answering env llm) state acc criteria w = score_criteria env state acc criteria w := by
  unfold score_criteria
  rw [if_neg (by simp [hgoing.goes]), if_neg (by simp [hgoing.goes])]
  refine bind_same rfl fun max_score _ => ?_
  have hchecks : check_budget (answering env llm) acc.tracker = check_budget env acc.tracker := rfl
  have hstatus : (check_budget env acc.tracker).1 = budget_status env d j := by
    rw [hgoing.tracker]
    rfl
  rw [hchecks]
  rcases hcheck : check_budget env acc.tracker with ⟨status, tracker⟩
  rw [hcheck] at hstatus
  dsimp only at hstatus ⊢
  by_cases hblocked : status = .blocked
  · rw [if_pos hblocked, if_pos hblocked]
  rw [if_neg hblocked, if_neg hblocked]
  refine bind_same rfl fun n hn => ?_
  have hdraw : n = d + j := by
    cases hn
    exact hgoing.draws
  have hanswer : (if status = .degrade then .ok (env.mock_score_criteria n) else llm n) =
      if status = .degrade then .ok (env.mock_score_criteria n) else env.llm_score_criteria n := by
    by_cases hdegrade : status = .degrade
    · rw [if_pos hdegrade, if_pos hdegrade]
    · have hok : status = .ok := by
        cases status with
        | ok => rfl
        | degrade => exact absurd rfl hdegrade
        | blocked => exact absurd rfl hblocked
      rw [if_neg hdegrade, if_neg hdegrade, hdraw]
      exact hsame (hstatus ▸ hok)
  exact bind_same (congrArg (fun r => lift r _) hanswer) fun answer _ => rfl

/-- A loop that was blocked asks nobody. -/
theorem blocked_loop.unasked {llm : Nat → Except PyErr LlmResult} {acc : Scoring}
    (state : EvaluationState) (defs : List PyDict) (h : acc.cost_exceeded = true) (w : World) :
    defs.foldlM (score_criteria (answering env llm) state) acc w =
      defs.foldlM (score_criteria env state) acc w := by
  induction defs generalizing w with
  | nil => rfl
  | cons criteria rest ih =>
    rw [List.foldlM_cons, List.foldlM_cons]
    unfold score_criteria
    rw [if_pos h, if_pos h]
    refine bind_same rfl fun acc' hacc => ?_
    cases hacc
    exact ih _

theorem scoring_loop.unasked {llm : Nat → Except PyErr LlmResult} {acc : Scoring}
    (state : EvaluationState) (defs : List PyDict) (h : Turned env d acc w)
    (hsame : ∀ j, budget_status env d j = .ok → llm (d + j) = env.llm_score_criteria (d + j)) :
    defs.foldlM (score_criteria (answering env llm) state) acc w =
      defs.foldlM (score_criteria env state) acc w := by
  induction defs generalizing acc w with
  | nil => rfl
  | cons criteria rest ih =>
    rw [List.foldlM_cons, List.foldlM_cons]
    have hturn := score_criteria.unasked state criteria h.going (hsame _)
    refine (bind_same hturn.symm fun acc' hacc => ?_).symm
    rcases (score_criteria.turns state criteria h).2 acc' hacc with ⟨-, hstops, -⟩ | ⟨hturned, -⟩
    · exact (blocked_loop.unasked state rest hstops _).symm
    · exact (ih hturned).symm

/-- The node does not ask the LLM on any criterion whose check is not `ok`. -/
theorem score_with_llm.unasked {llm : Nat → Except PyErr LlmResult} (state : EvaluationState)
    (hsame : ∀ j, budget_status env w.draws j = .ok →
      llm (w.draws + j) = env.llm_score_criteria (w.draws + j)) :
    node_score_with_llm (answering env llm) state w = node_score_with_llm env state w := by
  have hstart : Turned env w.draws ⟨⟨0, false, false⟩, [], [], false⟩ w :=
    ⟨⟨rfl, rfl, rfl⟩, fun i r hr => by simp at hr⟩
  exact bind_same (scoring_loop.unasked state _ hstart hsame) fun scoring _ => rfl

/-! ## The law -/

/-- The checks of a run never go back, and the LLM is not asked from the turn
on that finds the warning limit reached: its answers there change nothing. -/
structure Tightens (env : Env) (state : EvaluationState) (w : World) : Prop where
  forward : ∀ i j, i ≤ j →
    rank (budget_status env w.draws i) ≤ rank (budget_status env w.draws j)
  warned : ∀ i j, i ≤ j →
    budget_limit env.task_token_budget env.task_cost_warn_ratio ≤ spent env w.draws i →
      budget_status env w.draws j ≠ .ok
  unasked : ∀ i llm,
    budget_limit env.task_token_budget env.task_cost_warn_ratio ≤ spent env w.draws i →
      (∀ n < w.draws + i, llm n = env.llm_score_criteria n) →
        node_score_with_llm (answering env llm) state w = node_score_with_llm env state w

/-- The cost budget only tightens, and the node obeys it. -/
theorem budget_is_obeyed (env : Env) (hbudget : 0 < env.task_token_budget) (state : EvaluationState)
    (w : World) :
    Tightens env state w ∧ ∀ scored, (node_score_with_llm env state).result w = .ok scored →
      Obeys env w.draws (criteria_of state).length scored.criteria_results scored.cost_exceeded
        scored.cost_total_tokens := by
  have hwarned : ∀ i j, i ≤ j →
      budget_limit env.task_token_budget env.task_cost_warn_ratio ≤ spent env w.draws i →
        budget_status env w.draws j ≠ .ok := by
    intro i j hij hlimit hok
    rw [← tracker_total] at hlimit
    have hwarns : budget_status env w.draws i ≠ .ok := check_warns hbudget hlimit
    have hforward := status_forward hbudget w.draws hij
    rw [hok] at hforward
    rcases hstatus : budget_status env w.draws i with _ | _ | _
    · exact hwarns hstatus
    · rw [hstatus] at hforward
      simp [rank] at hforward
    · rw [hstatus] at hforward
      simp [rank] at hforward
  refine ⟨⟨fun i j hij => status_forward hbudget w.draws hij, hwarned, ?_⟩,
    (score_with_llm.obeys env state w).2⟩
  intro i llm hlimit hsame
  apply score_with_llm.unasked
  intro j hok
  apply hsame
  by_contra hlate
  exact hwarned i j (by omega) hlimit hok

/-- One criterion costs more than the whole budget, so the second is not scored. -/
theorem costly_run_is_cut : ∃ scored,
    (node_score_with_llm costly_env two_criteria).result World.start = .ok scored ∧
      scored.cost_exceeded = true ∧ scored.cost_total_tokens = 100 := by
  have hone : ((node_score_with_llm costly_env two_criteria).result World.start).toOption.map
      (fun scored => scored.criteria_results.length) = some 1 := by decide +kernel
  obtain ⟨scored, hscored, hlength⟩ := Option.map_eq_some_iff.1 hone
  have hobeys := (budget_is_obeyed costly_env (by decide) two_criteria World.start).2 scored
    (ok_of_toOption hscored)
  refine ⟨scored, ok_of_toOption hscored, hobeys.flag.2 ?_, hobeys.total.trans ?_⟩
  · rw [hlength]
    decide
  · rw [hlength]
    decide +kernel

end bid_evaluation.cost_laws
