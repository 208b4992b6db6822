-- The laws of the quality gate: what holds of the numbers of a state that
-- passes it. The deviation is taken before the total of a bid that breaks a
-- hard constraint is set to zero.
import Mathlib.Algebra.Order.Field.Rat
import Mathlib.Tactic.Linarith
import BidEvaluation.Operations

open dict_lib stepwise bid_evaluation.values bid_evaluation.core bid_evaluation.store_retrieval
  bid_evaluation.evaluation_nodes bid_evaluation.langgraph_runtime bid_evaluation.operations

namespace bid_evaluation.gate_laws

variable {env : Env} {w : World} {state passed : EvaluationState}

/-! ## The totals -/

/-- The weight of a result: that of its criterion, else one. -/
def weight_of (state : EvaluationState) (r : CriteriaResult) : Rat :=
  (lookupEntry state.criteria_weights r.criteria_id).getD 1

def scored_total (state : EvaluationState) : Rat :=
  (state.criteria_results.map (fun r => r.score * weight_of state r)).sum

def max_total (state : EvaluationState) : Rat :=
  (state.criteria_results.map (fun r => r.max_score * weight_of state r)).sum

/-- The total that the gate reports. -/
def reported_total (state : EvaluationState) : Rat :=
  if state.hard_constraint_pass then scored_total state else 0

theorem rat_abs (x : Rat) : Rat.abs x = |x| := by
  unfold Rat.abs
  split
  · rw [abs_of_nonneg ‹_›]
  · rw [abs_of_neg (not_le.1 ‹_›)]

theorem deviation_eq (env : Env) (s : Store) (state : EvaluationState) :
    (gate_numbers env s state).score_deviation_pct =
      |scored_total state - (if max_total state = 0 then 1 else max_total state)| /
        (if max_total state = 0 then 1 else max_total state) * 100 := by
  show Rat.abs _ / _ * 100 = _
  rw [rat_abs]
  rfl

/-! ## The gate -/

/-- What the gate returns, by its numbers and its reasons. -/
structure Gated (env : Env) (s : Store) (state gated : EvaluationState) : Prop where
  total_score : gated.total_score = reported_total state
  confidence : gated.confidence = (gate_numbers env s state).confidence
  coverage : gated.citation_coverage = (gate_numbers env s state).citation_coverage
  flag : gated.needs_human_review = true ↔ hitl_reasons env state (gate_numbers env s state) ≠ []
  redline : gated.redline_conflict = state.redline_conflict
  claims : gated.unsupported_claims = state.unsupported_claims

theorem gated (h : (node_quality_gate env state).result w = .ok passed) :
    Gated env w.store state passed := by
  unfold node_quality_gate at h
  rw [result_read] at h
  dsimp only at h
  rcases hissue : (issue_resume_token env state
      (hitl_reasons env state (gate_numbers env w.store state))).result w with e | interrupt
  · rw [result_bind_error hissue] at h
    cases h
  · rw [result_bind hissue] at h
    cases h
    refine ⟨rfl, rfl, rfl, ?_, rfl, rfl⟩
    simp

/-- A state without a reason is under each threshold of the gate. -/
theorem no_reason {n : GateNumbers} (h : hitl_reasons env state n = []) :
    65 / 100 ≤ n.confidence ∧ 90 / 100 ≤ n.citation_coverage ∧ n.score_deviation_pct ≤ 20 ∧
      state.redline_conflict = false ∧ state.unsupported_claims = [] := by
  unfold hitl_reasons at h
  simp only [List.append_eq_nil_iff] at h
  obtain ⟨⟨⟨⟨⟨-, hconfidence⟩, hcoverage⟩, hdeviation⟩, hredline⟩, hclaims⟩ := h
  refine ⟨?_, ?_, ?_, ?_, ?_⟩
  · by_contra hlow
    rw [if_pos (not_le.1 hlow)] at hconfidence
    cases hconfidence
  · by_contra hlow
    rw [if_pos (not_le.1 hlow)] at hcoverage
    cases hcoverage
  · by_contra hhigh
    rw [if_pos (not_le.1 hhigh)] at hdeviation
    cases hdeviation
  · by_contra hconflict
    rw [if_pos (Bool.not_eq_false _ ▸ hconflict)] at hredline
    cases hredline
  · by_contra hunsupported
    rw [if_pos hunsupported] at hclaims
    cases hclaims

theorem within_of_deviation {total bound : Rat} (hpos : 0 < bound)
    (h : |total - bound| / bound * 100 ≤ 20) : |total - bound| ≤ 20 / 100 * bound := by
  have hratio : |total - bound| / bound ≤ 20 / 100 := by linarith
  exact (div_le_iff₀ hpos).1 hratio

/-! ## A bid with a full score -/

def page_source : CitationSource where
  chunk_id := "chunk"
  document_id := "doc"
  tenant_id := "tenant"
  project_id := "project"
  supplier_id := "supplier"
  doc_type := "bid"
  page := .int 1
  bbox := .list []
  heading_path := .list []
  chunk_type := .str "text"
  content_source := .str "local"
  text := .str "on time"
  context := .str ""
  score_raw := 1
  chunk_hash := .str "hash"

def sourced : World := (register_citation_source calm_env "chunk" page_source).final World.start

/-- The one criterion has 20 of 20 and its evidence. -/
def full_score (hard_constraint_pass : Bool) : EvaluationState :=
  { initial_state "tenant" "ev" "trace" "thread" "job" no_payload with
    criteria_results := [⟨"delivery", "delivery", none, none, 20, 20, hard_constraint_pass, "", [],
      1, false⟩]
    criteria_weights := [("delivery", 1)]
    hard_constraint_pass := hard_constraint_pass
    citations_all_ids := ["chunk"] }

def gate_of (state : EvaluationState) : Except PyErr EvaluationState :=
  (node_quality_gate calm_env state).result sourced

/-! ## The law -/

/-- The numbers that a state reports are within the thresholds. -/
structure WithinThresholds (passed : EvaluationState) : Prop where
  confidence : 65 / 100 ≤ passed.confidence
  coverage : 90 / 100 ≤ passed.citation_coverage
  redline : passed.redline_conflict = false
  claims : passed.unsupported_claims = []

end bid_evaluation.gate_laws
