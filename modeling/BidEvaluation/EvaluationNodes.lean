-- `evaluation_nodes.py`: the nodes of an evaluation. Each one takes the
-- state, may write the store, and returns the state with its updates
-- merged in. Scores are rationals.
import BidEvaluation.StoreRetrieval

open dict_lib stepwise bid_evaluation.values bid_evaluation.core bid_evaluation.store_workflow
  bid_evaluation.store_admin bid_evaluation.store_retrieval

namespace bid_evaluation.evaluation_nodes

/-! ## Load the context -/

/-- The dictionary of a value. Any other value has no keys. -/
def asDict : PyVal → Option PyDict
  | .dict d => some d
  | _ => none

def default_criteria : List PyVal :=
  [.dict [("criteria_id", .str "delivery"), ("max_score", .float 20), ("weight", .float 1)]]

/-- The list under a key of the rules, if there is one. -/
def rule_items (rules : PyVal) (key : String) : List PyVal :=
  match asDict rules with
  | none => []
  | some d =>
    match d.get key with
    | .list items => items
    | _ => []

def criteria_defs_of (rules : PyVal) : List PyVal :=
  match rule_items rules "criteria" with
  | [] => default_criteria
  | criteria => criteria

def criteria_weights_of (env : Env) (criteria_defs : List PyVal) :
    Except PyErr (List (String × Rat)) :=
  (criteria_defs.filterMap asDict).foldlM (fun weights c => do
    let weight ← (c.getD "weight" (.float 1)).toFloat env.float_of_str
    pure (setEntry weights ((c.getD "criteria_id" (.str "")).toStr env.repr) weight)) []

def node_load_context (env : Env) (state : EvaluationState) : Act EvaluationState := do
  let w ← read
  let rule_pack := get_rule_pack_for_tenant w.store state.rule_pack_version state.tenant_id
  let rules := (rule_pack.map (fun pack => pack.rules)).getD (.dict [])
  let criteria_defs := criteria_defs_of rules
  let criteria_weights ← lift (criteria_weights_of env criteria_defs)
  let normalized := state.include_doc_types.map String.toLower
  pure { state with
    rules := rules
    criteria_defs := criteria_defs
    criteria_weights := criteria_weights
    hard_constraint_pass := "bid" ∈ normalized
    include_doc_types_normalized := normalized }

/-! ## Retrieve the evidence -/

def criteria_id_of (env : Env) (criteria : PyDict) : String :=
  ((criteria.get "criteria_id").or (.str "criteria")).toStr env.repr

/-- The evidence of each criterion, from any retrieval. -/
def gather_evidence (env : Env) (criteria_defs : List PyVal) :
    Act (List (String × List Evidence)) :=
  (criteria_defs.filterMap asDict).foldlM (fun found criteria => do
    let n ← draw
    let evidence ← lift (env.retrieve_evidence n)
    pure (setEntry found (criteria_id_of env criteria) evidence)) []

def citation_of_evidence (env : Env) (state : EvaluationState) (ev : Evidence) :
    CitationSource where
  chunk_id := ev.chunk_id
  document_id := "doc_" ++ (state.evaluation_id.take 8).toString
  tenant_id := state.tenant_id
  project_id := state.payload.project_id
  supplier_id := state.payload.supplier_id
  doc_type := state.include_doc_types.headD "bid"
  page := ev.page
  bbox := ev.bbox
  heading_path := .list [.str "auto", .str "mock_llm"]
  chunk_type := .str "text"
  content_source := .str (if env.mock_llm_enabled then "mock_llm" else "stub")
  text := .str ev.text
  context := .str (ev.text.take 200).toString
  score_raw := ev.score_raw
  chunk_hash := .str ("hash_" ++ ev.chunk_id)

/-- Register the first evidence of each id that has no source yet. -/
def register_citation_sources (env : Env) (state : EvaluationState)
    (criteria_evidence : List (String × List Evidence)) (citations_all_ids : List String) :
    Act Unit :=
  citations_all_ids.foldlM (fun _ chunk_id => do
    let w ← read
    match w.store.citation_sources.get? chunk_id with
    | some _ => pure ()
    | none =>
      match (criteria_evidence.flatMap Prod.snd).find? (fun ev => ev.chunk_id = chunk_id) with
      | none => pure ()
      | some ev =>
        register_citation_source env chunk_id (citation_of_evidence env state ev)) ()

def node_retrieve_evidence (env : Env) (state : EvaluationState) : Act EvaluationState := do
  let found ← gather_evidence env state.criteria_defs
  let criteria_evidence := env.apply_report_budget found
  let citations_all_ids := ((criteria_evidence.flatMap Prod.snd).map (fun ev => ev.chunk_id)).filter
    (fun id => id ≠ "")
  register_citation_sources env state criteria_evidence citations_all_ids
  pure { state with
    criteria_evidence := criteria_evidence
    citations_all_ids := citations_all_ids }

/-! ## Evaluate the rules -/

def blocked_words : List String := ["blocked", "violation", "failed", "conflict"]

def is_violated (env : Env) (item : PyDict) : Bool :=
  let status := ((item.get "status").or (.str "")).toStr env.repr
  (match item.get "violated" with
    | .bool true => true
    | _ => false) || (strip status).toLower ∈ blocked_words

def node_evaluate_rules (env : Env) (state : EvaluationState) : Act EvaluationState :=
  let redlines := (rule_items state.rules "redlines").filterMap asDict
  let required := (rule_items state.rules "required_doc_types").map
    (fun x => (x.toStr env.repr).toLower)
  pure { state with
    redline_conflict := redlines.any (is_violated env) ||
      required.any (fun x => x ∉ state.include_doc_types_normalized) }

/-! ## Score with the LLM -/

/-- `CostBudgetTracker`: the tokens so far, and the two latches. -/
structure CostBudgetTracker where
  total_tokens : Int
  degraded : Bool
  blocked : Bool

inductive BudgetStatus where
  | ok
  | degrade
  | blocked
deriving DecidableEq

/-- `int(budget * ratio)`. -/
def budget_limit (budget : Int) (ratio : Rat) : Int :=
  (budget * ratio).num.tdiv (budget * ratio).den

def check_budget (env : Env) (t : CostBudgetTracker) : BudgetStatus × CostBudgetTracker :=
  if t.blocked then (.blocked, t)
  else if env.task_token_budget ≤ 0 then (.ok, t)
  else if budget_limit env.task_token_budget env.task_cost_hard_ratio < t.total_tokens then
    (.blocked, { t with blocked := true })
  else if t.degraded then (.degrade, t)
  else if budget_limit env.task_token_budget env.task_cost_warn_ratio ≤ t.total_tokens then
    (.degrade, { t with degraded := true })
  else (.ok, t)

structure Scoring where
  tracker : CostBudgetTracker
  criteria_results : List CriteriaResult
  unsupported_claims : List String
  cost_exceeded : Bool

/-- `str(x) if x is not None else None`. -/
def optional_text (env : Env) (x : PyVal) : Option String :=
  match x with
  | .none => none
  | x => some (x.toStr env.repr)

/-- Score one criterion. After the budget has stopped the loop, the
criteria that are left get no result. -/
def score_criteria (env : Env) (state : EvaluationState) (acc : Scoring) (criteria : PyDict) :
    Act Scoring := do
  if acc.cost_exceeded then pure acc
  else do
    let cid := criteria_id_of env criteria
    let max_score ← lift ((criteria.getD "max_score" (.float 20)).toFloat env.float_of_str)
    let criteria_name := (((criteria.get "criteria_name").or (criteria.get "name")).or (.str cid))
    let requirement_text := (criteria.get "requirement_text").or (criteria.get "requirement")
    let response_text := (criteria.get "response_text").or (criteria.get "response")
    let evidence := (lookupEntry state.criteria_evidence cid).getD []
    let citation_ids := (evidence.map (fun ev => ev.chunk_id)).filter (fun id => id ≠ "")
    let (status, tracker) := check_budget env acc.tracker
    if status = .blocked then pure { acc with tracker := tracker, cost_exceeded := true }
    else do
      let n ← draw
      let llm_result ← lift (if status = .degrade then .ok (env.mock_score_criteria n)
        else env.llm_score_criteria n)
      let w ← read
      let hard_pass := llm_result.hard_pass.getD true && state.hard_constraint_pass
      let resolved := resolve_citations_batch w.store citation_ids false
      let result : CriteriaResult := {
        criteria_id := cid
        criteria_name := criteria_name.toStr env.repr
        requirement_text := optional_text env requirement_text
        response_text := optional_text env response_text
        score := llm_result.score
        max_score := max_score
        hard_pass := hard_pass
        reason := llm_result.reason.getD "evaluation completed"
        citations := resolved
        confidence := llm_result.confidence.getD (if hard_pass then 85 / 100 else 65 / 100)
        human_edited := false }
      pure {
        tracker := { tracker with
          total_tokens := tracker.total_tokens + llm_result.total_tokens }
        criteria_results := acc.criteria_results ++ [result]
        unsupported_claims := if (criteria.get "require_citation").truthy && resolved.isEmpty
          then acc.unsupported_claims ++ [cid] else acc.unsupported_claims
        cost_exceeded := false }

def has_source (s : Store) (chunk_id : String) : Bool :=
  (s.citation_sources.get? chunk_id).isSome

def node_score_with_llm (env : Env) (state : EvaluationState) : Act EvaluationState := do
  let scoring ← (state.criteria_defs.filterMap asDict).foldlM (score_criteria env state)
    ⟨⟨0, false, false⟩, [], [], false⟩
  let w ← read
  let missing := (state.citations_all_ids.filter (fun cid => !has_source w.store cid)).dedup
  pure { state with
    criteria_results := scoring.criteria_results
    unsupported_claims := scoring.unsupported_claims ++ missing
    cost_exceeded := scoring.cost_exceeded
    cost_total_tokens := scoring.tracker.total_tokens }

/-! ## The quality gate -/

def model_stability (env : Env) (criteria_results : List CriteriaResult)
    (hard_constraint_pass : Bool) : Rat :=
  let scores := criteria_results.map (fun r => r.score)
  let stability :=
    if 2 ≤ scores.length then
      let cv := if 0 < mean scores then env.sqrt (variance scores) / mean scores else 0
      max (1 / 2) (min 1 (1 - cv))
    else 3 / 4
  if hard_constraint_pass then stability else max (1 / 2) (stability - 15 / 100)

/-- The numbers that the gate looks at. -/
structure GateNumbers where
  total_score : Rat
  confidence : Rat
  citation_coverage : Rat
  score_deviation_pct : Rat

def gate_numbers (env : Env) (s : Store) (state : EvaluationState) : GateNumbers :=
  let weight (r : CriteriaResult) := (lookupEntry state.criteria_weights r.criteria_id).getD 1
  let total_score := (state.criteria_results.map (fun r => r.score * weight r)).sum
  let max_sum := (state.criteria_results.map (fun r => r.max_score * weight r)).sum
  let max_total := if max_sum = 0 then 1 else max_sum
  let ids := state.citations_all_ids
  let citation_coverage : Rat := (ids.filter (has_source s)).length / (max ids.length 1 : Nat)
  let base_confidence := 4 / 10 * citation_coverage +
    3 / 10 * calculate_retrieval_agreement env s ids +
    3 / 10 * model_stability env state.criteria_results state.hard_constraint_pass
  { total_score := total_score
    confidence := max 0 (min 1 (base_confidence * s.confidence_scale + s.score_bias))
    citation_coverage := citation_coverage
    score_deviation_pct := Rat.abs (total_score - max_total) / max_total * 100 }

def hitl_reasons (env : Env) (state : EvaluationState) (n : GateNumbers) : List String :=
  (if state.force_hitl then ["force_hitl"] else []) ++
  (if n.confidence < 65 / 100 then
    ["confidence_low (" ++ env.format_2f n.confidence ++ " < 0.65)"] else []) ++
  (if n.citation_coverage < 90 / 100 then
    ["citation_coverage_low (" ++ env.format_2pct n.citation_coverage ++ " < 90%)"] else []) ++
  (if 20 < n.score_deviation_pct then
    ["score_deviation_high (" ++ env.format_1f n.score_deviation_pct ++ "% > 20%)"] else []) ++
  (if state.redline_conflict then ["redline_conflict"] else []) ++
  (if state.unsupported_claims ≠ [] then ["unsupported_claims"] else [])

/-- A flagged evaluation gets a new resume token on each pass through the
gate, and the token before it is overwritten. -/
def issue_resume_token (env : Env) (state : EvaluationState) (reasons : List String) :
    Act (Option Interrupt) :=
  if reasons = [] then pure none
  else do
    let hex ← uuid4_hex12 env
    let resume_token := "rt_" ++ hex
    register_resume_token env state.evaluation_id resume_token state.tenant_id reasons
    pure (some ⟨state.evaluation_id, reasons, ["approve", "reject", "edit_scores"], resume_token⟩)

def node_quality_gate (env : Env) (state : EvaluationState) : Act EvaluationState := do
  let w ← read
  let n := gate_numbers env w.store state
  let reasons := hitl_reasons env state n
  let interrupt_payload ← issue_resume_token env state reasons
  pure { state with
    total_score := if state.hard_constraint_pass then n.total_score else 0
    confidence := n.confidence
    citation_coverage := n.citation_coverage
    score_deviation_pct := env.round2 n.score_deviation_pct
    needs_human_review := reasons ≠ []
    hitl_reasons := reasons
    interrupt_payload := interrupt_payload }

/-! ## The report -/

/-- A score that the reviewer edited takes the place of the LLM's. -/
def apply_edit (edited_scores : List (String × Rat)) (r : CriteriaResult) : CriteriaResult :=
  match lookupEntry edited_scores r.criteria_id with
  | none => r
  | some score => { r with score := score, human_edited := true }

def report_of (s : Store) (state : EvaluationState) : EvaluationReport where
  evaluation_id := state.evaluation_id
  supplier_id := state.supplier_id
  total_score := state.total_score
  confidence := state.confidence
  citation_coverage := state.citation_coverage
  score_deviation_pct := state.score_deviation_pct
  risk_level := if state.hard_constraint_pass then "medium" else "high"
  criteria_results := state.criteria_results.map (apply_edit state.edited_scores)
  citations := resolve_citations_batch s state.citations_all_ids true
  needs_human_review := state.needs_human_review
  trace_id := state.trace_id
  tenant_id := state.tenant_id
  thread_id := state.thread_id
  interrupt := state.interrupt_payload
  unsupported_claims := state.unsupported_claims
  redline_conflict := state.redline_conflict
  report_uri := none

def node_finalize_report (state : EvaluationState) : Act EvaluationState := do
  let w ← read
  pure { state with report := some (report_of w.store state) }

def node_persist_result (env : Env) (state : EvaluationState) : Act EvaluationState :=
  match state.report with
  | none => raise (.raised "KeyError" "evaluation_id")
  | some report => do
    persist_evaluation_report env report
    pure state

/-- `run_evaluation_nodes_sequentially`. -/
def run_evaluation_nodes_sequentially (env : Env) (state : EvaluationState) :
    Act EvaluationState := do
  let state ← node_load_context env state
  let state ← node_retrieve_evidence env state
  let state ← node_evaluate_rules env state
  let state ← node_score_with_llm env state
  let state ← node_quality_gate env state
  let state ← node_finalize_report state
  node_persist_result env state

end bid_evaluation.evaluation_nodes
