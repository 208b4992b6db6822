-- `tools_registry.py`: a call of a tool, with the policy of the environment,
-- the circuit breaker of each tool and the attempts of the call. JSON Schema
-- is a parameter, and so is what `invoke` does.
import BidEvaluation.Values
import Mathlib.Algebra.Order.Ring.Rat

open dict_lib bid_evaluation.values

namespace bid_evaluation.tools_registry

/-! ## The policy -/

/-- What `int(text)` reads from a variable, `default` when it is not set. -/
def env_int (environ : String → Option String) (name default : String) : Except PyErr Int :=
  let text := (environ name).getD default
  PyVal.toInt (.str (if text = "" then default else text))

/-- `{x.strip() for x in text.split(",") if x.strip()}`. -/
def names_in (text : String) : List String :=
  ((text.toList.splitOn ',').map fun x => strip (String.ofList x)).filter fun x => x ≠ ""

structure ToolCallPolicy where
  disabled_tools : List String
  disabled_risk_levels : List String
  timeout_s : Rat
  retry_max : Nat
  cb_failure_threshold : Nat
  cb_reset_s : Nat
  threshold_pos : 1 ≤ cb_failure_threshold
  reset_pos : 1 ≤ cb_reset_s

def from_env (environ : String → Option String) : Except PyErr ToolCallPolicy := do
  let timeout_ms ← env_int environ "TOOL_CALL_TIMEOUT_MS" "3000"
  let retry_max ← env_int environ "TOOL_CALL_RETRY_MAX" "0"
  let cb_failure_threshold ← env_int environ "TOOL_CALL_CB_THRESHOLD" "3"
  let cb_reset_s ← env_int environ "TOOL_CALL_CB_RESET_S" "60"
  pure {
    disabled_tools := names_in ((environ "TOOL_DISABLED").getD "")
    disabled_risk_levels := names_in ((environ "TOOL_DISABLED_RISK_LEVELS").getD "")
    timeout_s := max (1 / 1000) (timeout_ms / 1000)
    retry_max := (max 0 retry_max).toNat
    cb_failure_threshold := (max 1 cb_failure_threshold).toNat
    cb_reset_s := (max 1 cb_reset_s).toNat
    threshold_pos := by omega
    reset_pos := by omega }

/-! ## The tools -/

structure ToolSpec where
  name : String
  description : String
  input_schema : PyDict
  output_schema : PyDict
  side_effect_level : String
  idempotency_policy : String
  timeout_retry_policy : String
  owner : String
  risk_level : String

/-- The JSON schema of an object with these properties. -/
def object_schema (properties : List (String × PyVal)) (required : List String) : PyDict :=
  [("type", .str "object"), ("properties", .dict properties),
    ("required", .list (required.map .str))]

/-- A property of one type. -/
def typed (name type' : String) : String × PyVal := (name, .dict [("type", .str type')])

def dlq_discard : ToolSpec where
  name := "dlq_discard"
  description := "Discard a DLQ item with approvals."
  input_schema := object_schema
    [typed "item_id" "string", typed "reason" "string", typed "reviewer_id" "string",
      ("reviewer_id_2", .dict [("type", .list [.str "string", .str "null"])])]
    ["item_id", "reason", "reviewer_id"]
  output_schema := object_schema [typed "dlq_id" "string", typed "status" "string"]
    ["dlq_id", "status"]
  side_effect_level := "external_commit"
  idempotency_policy := "by_item_id"
  timeout_retry_policy := "no_retry"
  owner := "ops"
  risk_level := "L3"

def legal_hold_release : ToolSpec where
  name := "legal_hold_release"
  description := "Release a legal hold after dual approval."
  input_schema := object_schema
    [typed "hold_id" "string", typed "reason" "string", typed "reviewer_id" "string",
      typed "reviewer_id_2" "string"]
    ["hold_id", "reason", "reviewer_id", "reviewer_id_2"]
  output_schema := object_schema [typed "hold_id" "string", typed "status" "string"]
    ["hold_id", "status"]
  side_effect_level := "external_commit"
  idempotency_policy := "by_hold_id"
  timeout_retry_policy := "no_retry"
  owner := "governance"
  risk_level := "L3"

def strategy_tuning_apply : ToolSpec where
  name := "strategy_tuning_apply"
  description := "Apply strategy tuning with approval."
  input_schema := object_schema
    [typed "release_id" "string", typed "selector" "object", typed "score_calibration" "object",
      typed "tool_policy" "object"]
    ["release_id", "selector", "score_calibration", "tool_policy"]
  output_schema := object_schema
    [typed "strategy_version" "string", typed "selector" "object",
      typed "score_calibration" "object", typed "tool_policy" "object"]
    ["strategy_version", "selector", "score_calibration", "tool_policy"]
  side_effect_level := "state_write"
  idempotency_policy := "by_release_id"
  timeout_retry_policy := "no_retry"
  owner := "ops"
  risk_level := "L2"

def init_default_tools : List ToolSpec := [dlq_discard, legal_hold_release, strategy_tuning_apply]

/-! ## Attempts -/

/-- What ends a call or an attempt: an error of the application, the timeout
of this module, another exception, or one that is no `Exception`. -/
inductive Raised where
  | api (e : ApiError)
  | tool_timeout (text : String)
  | exception (e : PyErr)
  | base_exception (class_name : String)
deriving DecidableEq

/-- What `jsonschema.validate` does. -/
inductive Validation where
  | valid
  | invalid (message : String)
  | raises (e : Raised)

/-- How one attempt ended. An attempt that ran out of time was perhaps not
started, nor one that raised; one that raises `TimeoutError` itself counts as
out of time. -/
inductive Outcome where
  | timed_out (started : Bool)
  | returned (value : PyVal)
  | raised (started : Bool) (e : Raised)

/-- One attempt, and whether it applied its effect, in time or late. -/
structure Attempt where
  outcome : Outcome
  applied : Bool

/-- Whether `invoke` ran. -/
def Attempt.started (a : Attempt) : Bool :=
  match a.outcome with
  | .timed_out started => started
  | .raised started _ => started
  | .returned _ => true

structure ToolEnv where
  environ : String → Option String
  validate : PyVal → PyDict → Validation
  /-- `str(e)`. -/
  text_of : PyErr → String
  /-- The time of each step of the calls, as `time.monotonic()` has it. -/
  monotonic : Nat → Rat
  never_back : Monotone monotonic

/-! ## The circuit -/

structure CircuitState where
  failures : Nat
  opened_at : Option Rat
deriving DecidableEq

abbrev Circuits := Dict String CircuitState

def circuit_state (circuits : Circuits) (name : String) : CircuitState :=
  (circuits.get? name).getD ⟨0, none⟩

/-- The check, and the circuit after it. -/
def is_circuit_open (circuits : Circuits) (name : String) (policy : ToolCallPolicy) (now : Rat) :
    Bool × Circuits :=
  let state := circuit_state circuits name
  match state.opened_at with
  | none => (false, circuits.set name state)
  | some opened_at =>
    if policy.cb_reset_s ≤ now - opened_at then (false, circuits.set name ⟨0, none⟩)
    else (true, circuits.set name state)

def record_failure (circuits : Circuits) (name : String) (policy : ToolCallPolicy) (now : Rat) :
    Circuits :=
  let state := circuit_state circuits name
  let failures := state.failures + 1
  circuits.set name ⟨failures,
    if policy.cb_failure_threshold ≤ failures then some now else state.opened_at⟩

def record_success (circuits : Circuits) (name : String) : Circuits :=
  circuits.set name ⟨0, none⟩

/-! ## One call -/

/-- What a call leaves to be seen: its attempts, failures and successes. -/
inductive Event where
  | submitted (tool : String) (at' : Rat) (attempt : Attempt)
  | failed (tool : String) (at' : Rat)
  | succeeded (tool : String) (at' : Rat)

/-- The circuits, and how many moments have gone by. -/
structure ToolWorld where
  circuits : Circuits
  moments : Nat

structure Called where
  outcome : Except Raised PyDict
  world : ToolWorld
  events : List Event

/-- A call of a tool, and what each attempt would do. -/
structure ToolCall where
  spec : ToolSpec
  input_payload : PyDict
  attempts : Nat → Attempt

def output_invalid (message : String) : Raised :=
  .api ⟨"TOOL_OUTPUT_INVALID", message, "validation", false, 500⟩

/-- What the body of the loop has after one attempt. -/
def attempt_result (env : ToolEnv) (spec : ToolSpec) : Outcome → Except Raised PyDict
  | .timed_out _ => .error (.tool_timeout "tool call timeout")
  | .raised _ e => .error e
  | .returned value =>
    match value with
    | .dict result =>
      match env.validate (.dict spec.output_schema) result with
      | .valid => .ok result
      | .invalid message => .error (output_invalid ("tool output invalid: " ++ message))
      | .raises e => .error e
    | _ => .error (output_invalid "tool output must be object")

/-- Whether the loop goes on after an exception, and the text of it. -/
def retried (env : ToolEnv) : Raised → Option String
  | .tool_timeout text => some text
  | .api e => if e.retryable then some e.message else none
  | .exception e => some (env.text_of e)
  | .base_exception _ => none

def is_tool_timeout : Raised → Bool
  | .tool_timeout _ => true
  | _ => false

/-- `str(last_error or text)`. -/
def gave_up (last_error : Option String) (saw_timeout : Bool) : Raised :=
  if saw_timeout then
    .api ⟨"TOOL_TIMEOUT", last_error.getD "tool call timeout", "availability", true, 504⟩
  else
    .api ⟨"TOOL_EXECUTION_FAILED", last_error.getD "tool execution failed", "availability", true,
      500⟩

def attempt_loop (env : ToolEnv) (policy : ToolCallPolicy) (spec : ToolSpec) :
    List Attempt → ToolWorld → (last_error : Option String) → (saw_timeout : Bool) → Called
  | [], w, last_error, saw_timeout => ⟨.error (gave_up last_error saw_timeout), w, []⟩
  | a :: rest, w, _, saw_timeout =>
    let submitted := Event.submitted spec.name (env.monotonic w.moments) a
    let now := env.monotonic (w.moments + 1)
    match attempt_result env spec a.outcome with
    | .ok result =>
      ⟨.ok result, ⟨record_success w.circuits spec.name, w.moments + 2⟩,
        [submitted, .succeeded spec.name now]⟩
    | .error e =>
      match retried env e with
      | none => ⟨.error e, ⟨w.circuits, w.moments + 2⟩, [submitted]⟩
      | some text =>
        let called := attempt_loop env policy spec rest
          ⟨record_failure w.circuits spec.name policy now, w.moments + 2⟩ (some text)
          (saw_timeout || is_tool_timeout e)
        { called with events := submitted :: .failed spec.name now :: called.events }

def execute_tool (env : ToolEnv) (call : ToolCall) (w : ToolWorld) : Called :=
  let spec := call.spec
  match from_env env.environ with
  | .error e => ⟨.error (.exception e), w, []⟩
  | .ok policy =>
    if spec.name ∈ policy.disabled_tools ∨ spec.risk_level ∈ policy.disabled_risk_levels then
      ⟨.error (.api ⟨"TOOL_DISABLED", "tool disabled: " ++ spec.name, "security_sensitive", false,
        403⟩), w, []⟩
    else
      match env.validate (.dict spec.input_schema) call.input_payload with
      | .invalid message =>
        ⟨.error (.api ⟨"TOOL_INPUT_INVALID", "tool input invalid: " ++ message, "validation", false,
          400⟩), w, []⟩
      | .raises e => ⟨.error e, w, []⟩
      | .valid =>
        let checked := is_circuit_open w.circuits spec.name policy (env.monotonic w.moments)
        let w := ⟨checked.2, w.moments + 1⟩
        if checked.1 then
          ⟨.error (.api ⟨"TOOL_CIRCUIT_OPEN", "tool circuit open: " ++ spec.name, "availability",
            true, 503⟩), w, []⟩
        else
          attempt_loop env policy spec ((List.range (policy.retry_max + 1)).map call.attempts) w
            none false

/-- The calls of a run, one after the other. -/
def run_calls (env : ToolEnv) : List ToolCall → ToolWorld → ToolWorld × List Event
  | [], w => (w, [])
  | call :: rest, w =>
    let called := execute_tool env call w
    let later := run_calls env rest called.world
    (later.1, called.events ++ later.2)

end bid_evaluation.tools_registry
