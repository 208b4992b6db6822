-- `llm_provider.py` and the scoring of `mock_llm.py`: one criterion is scored
-- by the model, by its fallback model, or by the mock. Scores are rationals.
import BidEvaluation.Lib.HalfEven
import BidEvaluation.Values
import Mathlib.Data.Rat.Floor

open dict_lib bid_evaluation.values

namespace bid_evaluation.llm_provider

/-! ## The call -/

/-- An evidence chunk. A missing key is `none`. -/
structure EvidenceChunk where
  page : Option PyVal
  text : Option String
  score_raw : Option Rat

/-- The arguments of a scoring call. -/
structure ScoreCall where
  criteria_id : String
  requirement_text : String
  evidence_chunks : List EvidenceChunk
  max_score : Rat
  criteria_name : String
  hard_constraint_pass : Bool

structure UsageCounts where
  prompt_tokens : Int
  completion_tokens : Int
  total_tokens : Int
  latency_ms : Rat
deriving DecidableEq

/-- The result of a scoring call. A key that it does not set is `none`. -/
structure ScoreResult where
  score : Rat
  max_score : Rat
  hard_pass : Bool
  reason : String
  confidence : Option Rat
  model : Option String
  degraded : Option Bool
  usage : Option UsageCounts
deriving DecidableEq

/-- `round(x, 2)`. -/
def round2 (x : Rat) : Rat := half_even.to_places 2 x

/-! ## The mock -/

def mock_result (score max_score : Rat) (hard_pass : Bool) (reason : String) : ScoreResult :=
  ⟨score, max_score, hard_pass, reason, none, none, none, none⟩

def mock_score_criteria (call : ScoreCall) : ScoreResult :=
  match call.evidence_chunks with
  | [] =>
    let base_score : Rat := if call.hard_constraint_pass then 9 / 10 else 3 / 10
    mock_result (round2 (call.max_score * base_score)) call.max_score call.hard_constraint_pass
      (if call.hard_constraint_pass then "使用 Mock LLM 默认评分" else "未找到相关证据支持")
  | evidence_chunks =>
    let avg_score_raw := (evidence_chunks.map fun c => c.score_raw.getD (7 / 10)).sum /
      evidence_chunks.length
    let avg_score_raw := if call.hard_constraint_pass then max avg_score_raw (9 / 10)
      else avg_score_raw
    let score := round2 (avg_score_raw * call.max_score)
    let score := min call.max_score (max 0 score)
    let hard_pass := decide (call.max_score * (6 / 10) ≤ score)
    mock_result score call.max_score hard_pass
      (if hard_pass then s!"依据 {evidence_chunks.length} 条证据，评分项符合要求"
        else s!"依据 {evidence_chunks.length} 条证据，评分项部分符合要求")

/-! ## The provider -/

structure ProviderConfig where
  provider : String
  model : String
  fallback_model : String
  api_key : String
  base_url : String
  temperature : Rat

structure LLMUsage where
  prompt_tokens : Int
  completion_tokens : Int
  total_tokens : Int
  model : String
  latency_ms : Rat
  degraded : Bool
  degrade_reason : String

structure Message where
  role : String
  content : String

/-- What a chat completion answers, and how long it took. -/
structure ChatResponse where
  content : Option String
  usage : Option (Int × Int × Int)
  elapsed_ms : Rat

/-- The settings, and the answers of the outside to one scoring call. -/
structure LlmEnv where
  MOCK_LLM_ENABLED : Bool
  environ : String → Option String
  float_of_str : String → Except PyErr Rat
  repr : PyVal → String
  create_client : ProviderConfig → Except PyErr Unit
  /-- The completions of the primary and of the fallback model. -/
  completion : (is_fallback : Bool) → String → List Message → Except PyErr ChatResponse
  json_loads : String → Except PyErr PyVal
  type_name : PyErr → String

def getenv (env : LlmEnv) (name default : String) : String :=
  strip ((env.environ name).getD default)

def get_provider_config (env : LlmEnv) : Except PyErr ProviderConfig := do
  let provider := (getenv env "LLM_PROVIDER" "openai").toLower
  let fallback := getenv env "LLM_FALLBACK_MODEL" ""
  let temperature ← env.float_of_str (getenv env "LLM_TEMPERATURE" "0.1")
  -- `__post_init__` replaces an empty model
  let named (model : String) : String :=
    if model = "" then getenv env "LLM_MODEL" "gpt-4o-mini" else model
  if provider = "ollama" then
    let api_key := getenv env "OPENAI_API_KEY" "ollama"
    pure ⟨"ollama", named (getenv env "OLLAMA_MODEL" ((env.environ "LLM_MODEL").getD "")), fallback,
      if api_key = "" then "ollama" else api_key,
      getenv env "OLLAMA_BASE_URL" "http://localhost:11434/v1", temperature⟩
  else
    pure ⟨provider, named (getenv env "LLM_MODEL" ""), fallback, getenv env "OPENAI_API_KEY" "",
      getenv env "OPENAI_BASE_URL" "", temperature⟩

def is_real_llm_available (env : LlmEnv) : Except PyErr Bool :=
  if env.MOCK_LLM_ENABLED then .ok false
  else do
    let config ← get_provider_config env
    pure (if config.provider = "ollama" then decide (config.base_url ≠ "")
      else decide (config.api_key ≠ ""))

def call_chat (env : LlmEnv) (is_fallback : Bool) (model : String) (messages : List Message) :
    Except PyErr (String × LLMUsage) := do
  let response ← env.completion is_fallback model messages
  let (prompt_tokens, completion_tokens, total_tokens) := response.usage.getD (0, 0, 0)
  pure (response.content.getD "",
    ⟨prompt_tokens, completion_tokens, total_tokens, model,
      half_even.to_places 1 response.elapsed_ms, false, ""⟩)

def call_with_degradation (env : LlmEnv) (config : ProviderConfig) (messages : List Message) :
    Except PyErr (String × LLMUsage) := do
  env.create_client config
  match call_chat env false config.model messages with
  | .ok answer => pure answer
  | .error primary_exc =>
    if config.fallback_model = "" then .error primary_exc
    else do
      let (content, usage) ← call_chat env true config.fallback_model messages
      pure (content, { usage with
        degraded := true
        degrade_reason := "primary_failed:" ++ env.type_name primary_exc })

/-! ## The scoring -/

def SCORE_SYSTEM_PROMPT : String :=
  "你是一个专业的评标专家AI助手。你需要根据提供的证据对评分项进行评分。\n\n要求：\n" ++
  "1. 严格基于证据评分，不得编造不存在的信息\n2. 每个评分都必须引用具体的证据来源\n" ++
  "3. 使用JSON格式返回结构化结果\n\n评分标准：\n- 完全符合要求：90-100% 的满分\n" ++
  "- 基本符合要求：70-89% 的满分\n- 部分符合要求：40-69% 的满分\n- 不符合要求：0-39% 的满分\n"

def score_user_message (criteria_id criteria_name requirement_text max_score evidence_text : String) :
    String :=
  "评分项ID: " ++ criteria_id ++ "\n评分项名称: " ++ criteria_name ++ "\n要求描述: " ++
  requirement_text ++ "\n满分: " ++ max_score ++ "\n\n相关证据:\n" ++ evidence_text ++
  "\n\n请按以下JSON格式返回评分结果:\n\x7b\n  \"score\": <float, 0 到 max_score>,\n" ++
  "  \"hard_pass\": <bool, 是否通过硬性要求>,\n  \"reason\": <string, 评分理由，必须引用证据>,\n" ++
  "  \"confidence\": <float, 0.0-1.0, 评分置信度>\n\x7d"

def evidence_text_of (env : LlmEnv) (evidence_chunks : List EvidenceChunk) : String :=
  let text := evidence_chunks.zipIdx.foldl (fun text (chunk, i) =>
    text ++ "[证据" ++ toString (i + 1) ++ "] (第" ++ (chunk.page.getD (.str "?")).toStr env.repr ++
      "页): " ++ ((chunk.text.getD "").take 500).toString ++ "\n\n") ""
  if strip text = "" then "（无相关证据）" else text

def score_messages (env : LlmEnv) (call : ScoreCall) : List Message :=
  let criteria_name := if call.criteria_name = "" then call.criteria_id else call.criteria_name
  let requirement_text :=
    if call.requirement_text = "" then "未提供具体要求" else call.requirement_text
  [⟨"system", SCORE_SYSTEM_PROMPT⟩,
    ⟨"user", score_user_message call.criteria_id criteria_name requirement_text
      (env.repr (.float call.max_score)) (evidence_text_of env call.evidence_chunks)⟩]

/-- The result that a reply of the model gives. -/
def scored_by_reply (env : LlmEnv) (max_score : Rat) (content : String) (usage : LLMUsage) :
    Except PyErr ScoreResult := do
  match ← env.json_loads content with
  | .dict result =>
    let score ← (PyDict.getD result "score" (.float (max_score * (5 / 10)))).toFloat env.float_of_str
    let score := max 0 (min max_score score)
    let confidence ← (PyDict.getD result "confidence" (.float (75 / 100))).toFloat env.float_of_str
    pure {
      score := round2 score
      max_score := max_score
      hard_pass :=
        (PyDict.getD result "hard_pass" (.bool (decide (max_score * (6 / 10) ≤ score)))).truthy
      reason := (PyDict.getD result "reason" (.str "LLM evaluation completed")).toStr env.repr
      confidence := some confidence
      model := some usage.model
      degraded := some usage.degraded
      usage := some ⟨usage.prompt_tokens, usage.completion_tokens, usage.total_tokens,
        usage.latency_ms⟩ }
  | _ => .error (.raised "AttributeError" "object has no attribute 'get'")

def llm_score_criteria (env : LlmEnv) (call : ScoreCall) : Except PyErr ScoreResult := do
  if ← is_real_llm_available env then
    let config ← get_provider_config env
    let answered : Except PyErr ScoreResult := do
      let (content, usage) ← call_with_degradation env config (score_messages env call)
      scored_by_reply env call.max_score content usage
    match answered with
    | .ok result => pure result
    | .error exc =>
      let result := mock_score_criteria call
      pure { result with
        reason := "[LLM fallback] " ++ result.reason ++ " (error: " ++ env.type_name exc ++ ")"
        degraded := some true }
  else pure (mock_score_criteria call)

end bid_evaluation.llm_provider
