-- The bounds of a score. The reply of a model is clamped and then rounded, so
-- it can end above a largest score that is no whole number of hundredths; so
-- can the mock without evidence. The mock with evidence clamps last.
import BidEvaluation.LlmProvider

open bid_evaluation.values bid_evaluation.llm_provider

namespace bid_evaluation.score_bounds

variable {max_score points : Rat} {env : LlmEnv} {call : ScoreCall}

def Within (max_score score : Rat) : Prop := 0 ≤ score ∧ score ≤ max_score

instance (max_score score : Rat) : Decidable (Within max_score score) := by
  unfold Within
  infer_instance

/-- The points round to no more than the whole hundredths of the largest
score: they are less than half a hundredth above these, or half of one above
an even number of them. -/
def Fits (max_score points : Rat) : Prop := half_even.Down (points * 100) ⌊max_score * 100⌋

theorem within_round2 (h : 0 ≤ points) : Within max_score (round2 points) ↔ Fits max_score points := by
  have hpow : (10 : Rat) ^ 2 = 100 := by norm_num
  unfold Within Fits round2
  rw [half_even.to_places_le_iff, hpow]
  exact and_iff_right (half_even.to_places_nonneg 2 h)

/-! ## The mock -/

/-- Three tenths of the largest score are always far enough below it. -/
theorem three_tenths_fit (h : 0 ≤ max_score) : Fits max_score (max_score * (3 / 10)) := by
  have hwhole : (0 : Rat) ≤ ⌊max_score * 100⌋ := by
    exact_mod_cast Int.floor_nonneg.2 (mul_nonneg h (by norm_num : (0 : Rat) ≤ 100))
  have hnext := Int.lt_floor_add_one (max_score * 100)
  apply Or.inl
  linarith

/-- Nine tenths are, once the largest score is four hundredths. -/
theorem nine_tenths_fit (h : 4 / 100 ≤ max_score) : Fits max_score (max_score * (9 / 10)) := by
  have hfour : 4 ≤ ⌊max_score * 100⌋ := by
    apply Int.le_floor.2
    push_cast
    linarith
  have hwhole : (4 : Rat) ≤ ⌊max_score * 100⌋ := by exact_mod_cast hfour
  have hnext := Int.lt_floor_add_one (max_score * 100)
  apply Or.inl
  linarith

/-- When the mock stays within the bounds. -/
def MockFits (call : ScoreCall) : Prop :=
  call.evidence_chunks ≠ [] ∨ call.hard_constraint_pass = false ∨
    Fits call.max_score (call.max_score * (9 / 10))

theorem mock_within_iff (h : 0 ≤ call.max_score) :
    Within call.max_score (mock_score_criteria call).score ↔ MockFits call := by
  unfold mock_score_criteria MockFits
  split
  · rename_i hnone
    dsimp only [mock_result]
    cases hhard : call.hard_constraint_pass
    · have hthree : 0 ≤ call.max_score * (3 / 10) := mul_nonneg h (by norm_num)
      simp only [Bool.false_eq_true, if_false, within_round2 hthree]
      exact ⟨fun _ => .inr (.inl trivial), fun _ => three_tenths_fit h⟩
    · have hnine : 0 ≤ call.max_score * (9 / 10) := mul_nonneg h (by norm_num)
      simp [within_round2 hnine, hnone]
  · -- the score is clamped last
    rename_i hsome
    refine ⟨fun _ => .inl hsome, fun _ => ?_⟩
    dsimp only [mock_result]
    exact ⟨le_min h (le_max_left _ _), min_le_left _ _⟩

/-! ## The model -/

/-- The score that a reply states, when the reply can be read. -/
def stated_score (env : LlmEnv) (max_score : Rat) (content : String) : Option Rat :=
  match env.json_loads content with
  | .ok (.dict result) =>
    match (PyDict.getD result "score" (.float (max_score * (5 / 10)))).toFloat env.float_of_str,
      (PyDict.getD result "confidence" (.float (75 / 100))).toFloat env.float_of_str with
    | .ok score, .ok _ => some score
    | _, _ => none
  | _ => none

/-- The score in the reply of a real model, if one is asked and answers so. -/
def real_score (env : LlmEnv) (call : ScoreCall) : Option Rat :=
  match is_real_llm_available env, get_provider_config env with
  | .ok true, .ok config =>
    match call_with_degradation env config (score_messages env call) with
    | .ok (content, _) => stated_score env call.max_score content
    | .error _ => none
  | _, _ => none

theorem scored_by_reply.spec (env : LlmEnv) (max_score : Rat) (content : String) (usage : LLMUsage) :
    match stated_score env max_score content with
    | some score => ∃ result, scored_by_reply env max_score content usage = .ok result ∧
        result.score = round2 (max 0 (min max_score score))
    | none => ∃ exc, scored_by_reply env max_score content usage = .error exc := by
  unfold stated_score scored_by_reply
  cases env.json_loads content with
  | error exc => exact ⟨exc, rfl⟩
  | ok reply =>
    cases reply with
    | dict result =>
      simp only [bind, Except.bind]
      generalize (PyDict.getD result "score" _).toFloat env.float_of_str = score
      cases score with
      | error exc => exact ⟨exc, rfl⟩
      | ok score =>
        generalize (PyDict.getD result "confidence" _).toFloat env.float_of_str = confidence
        cases confidence with
        | error exc => exact ⟨exc, rfl⟩
        | ok confidence => exact ⟨_, rfl, rfl⟩
    | _ => exact ⟨_, rfl⟩

/-- When the score of `llm_score_criteria` stays within the bounds. -/
def LlmFits (env : LlmEnv) (call : ScoreCall) : Prop :=
  match real_score env call with
  | some score => Fits call.max_score (max 0 (min call.max_score score))
  | none => MockFits call

/-- The configuration can be read when a real model is asked, and where it
cannot be read, that is the error. -/
theorem is_real_llm_available.spec (env : LlmEnv) :
    match is_real_llm_available env with
    | .ok true => ∃ config, get_provider_config env = .ok config
    | .ok false => True
    | .error exc => get_provider_config env = .error exc := by
  unfold is_real_llm_available
  by_cases hmock : env.MOCK_LLM_ENABLED = true
  · simp [hmock]
  · simp only [hmock, if_false, Bool.false_eq_true]
    cases get_provider_config env with
    | error exc => rfl
    | ok config =>
      simp only [bind, Except.bind, pure, Except.pure]
      split
      · exact ⟨config, rfl⟩
      · trivial
      · rename_i hraised
        cases hraised

/-- The score is that of the reply, or that of the mock. -/
theorem llm_score_criteria.spec (env : LlmEnv) (call : ScoreCall) :
    (∃ exc, get_provider_config env = .error exc ∧ llm_score_criteria env call = .error exc) ∨
    ∃ result, llm_score_criteria env call = .ok result ∧
      result.score = match real_score env call with
        | some score => round2 (max 0 (min call.max_score score))
        | none => (mock_score_criteria call).score := by
  have hread := is_real_llm_available.spec env
  unfold llm_score_criteria real_score
  simp only [bind, Except.bind, pure, Except.pure]
  cases hreal : is_real_llm_available env with
  | error exc =>
    rw [hreal] at hread
    exact .inl ⟨exc, hread, rfl⟩
  | ok available =>
    rw [hreal] at hread
    apply Or.inr
    cases available with
    | false => exact ⟨_, rfl, rfl⟩
    | true =>
      obtain ⟨config, hconfig⟩ := hread
      rw [hconfig]
      simp only [if_true]
      cases call_with_degradation env config (score_messages env call) with
      | error exc => exact ⟨_, rfl, rfl⟩
      | ok answer =>
        obtain ⟨content, usage⟩ := answer
        have hreply := scored_by_reply.spec env call.max_score content usage
        dsimp only
        generalize stated_score env call.max_score content = stated at hreply ⊢
        cases stated with
        | some score =>
          obtain ⟨result, hok, hscore⟩ := hreply
          rw [hok]
          exact ⟨_, rfl, hscore⟩
        | none =>
          obtain ⟨exc, herror⟩ := hreply
          rw [herror]
          exact ⟨_, rfl, rfl⟩

/-- The scores of both functions are within the bounds exactly when the
points that they round fit. -/
theorem scores_within_iff (env : LlmEnv) (call : ScoreCall) (h : 0 ≤ call.max_score) :
    (Within call.max_score (mock_score_criteria call).score ↔ MockFits call) ∧
    ((∃ exc, get_provider_config env = .error exc ∧ llm_score_criteria env call = .error exc) ∨
      ∃ result, llm_score_criteria env call = .ok result ∧
        (Within call.max_score result.score ↔ LlmFits env call)) := by
  refine ⟨mock_within_iff h, (llm_score_criteria.spec env call).imp id ?_⟩
  rintro ⟨result, hresult, hscore⟩
  refine ⟨result, hresult, ?_⟩
  unfold LlmFits
  rw [hscore]
  cases real_score env call with
  | none => exact mock_within_iff h
  | some score => exact within_round2 (le_max_left _ _)

/-- A call without evidence. -/
def bare_call (max_score : Rat) : ScoreCall := ⟨"delivery", "", [], max_score, "", true⟩

/-- A real model that answers each call with 9.999 points. -/
def answering_env : LlmEnv where
  MOCK_LLM_ENABLED := false
  environ name := if name = "OPENAI_API_KEY" then some "sk-1" else none
  float_of_str _ := .ok (1 / 10)
  repr _ := ""
  create_client _ := .ok ()
  completion _ _ _ := .ok ⟨some "\x7b\"score\": 9.999\x7d", none, 0⟩
  json_loads _ := .ok (.dict [("score", .float (9999 / 1000))])
  type_name _ := "Exception"

theorem ten_points_are_within :
    Within 10 (mock_score_criteria (bare_call 10)).score ∧
      ∃ result, llm_score_criteria answering_env (bare_call 10) = .ok result ∧
        Within 10 result.score := by
  have hconfig : (get_provider_config answering_env).toOption.isSome = true := by decide +kernel
  have hreal : real_score answering_env (bare_call 10) = some (9999 / 1000) := by decide +kernel
  obtain ⟨hmock, hraised | ⟨result, hresult, hwithin⟩⟩ :=
    scores_within_iff answering_env (bare_call 10) (by norm_num [bare_call])
  · obtain ⟨exc, hraised, -⟩ := hraised
    rw [hraised] at hconfig
    cases hconfig
  · refine ⟨hmock.2 (.inr (.inr (nine_tenths_fit (by norm_num [bare_call])))), result, hresult, ?_⟩
    unfold LlmFits at hwithin
    rw [hreal] at hwithin
    exact hwithin.2 (.inl (by decide +kernel))

/-- The mock gives 0.01 points of 0.006, and a reply of 9.999 of 9.999 ends as 10. -/
theorem rounding_exceeds_the_maximum :
    ¬Within (6 / 1000) (mock_score_criteria (bare_call (6 / 1000))).score ∧
      ∃ result, llm_score_criteria answering_env (bare_call (9999 / 1000)) = .ok result ∧
        ¬Within (9999 / 1000) result.score :=
  ⟨by decide +kernel,
    ⟨10, 9999 / 1000, true, "LLM evaluation completed", some (75 / 100), some "gpt-4o-mini",
      some false, some ⟨0, 0, 0, 0⟩⟩, by decide +kernel, by decide +kernel⟩

end bid_evaluation.score_bounds
