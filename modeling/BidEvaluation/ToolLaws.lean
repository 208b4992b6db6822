-- The laws of a tool call. How often a call runs `invoke` is what its
-- attempts decide: the retry policy that a tool declares is not read. The
-- breaker is checked before the first attempt only, so it stops all calls in
-- the runs where no call goes on after the failure that opens it.
import BidEvaluation.Lib.Breaker
import BidEvaluation.ToolsRegistry
import Mathlib.Data.Nat.Cast.Order.Ring
import Mathlib.Tactic.Linarith

open dict_lib bid_evaluation.values bid_evaluation.tools_registry

namespace bid_evaluation.tool_laws

variable {env : ToolEnv} {policy : ToolCallPolicy} {call : ToolCall} {w : ToolWorld} {tool : String}

/-! ## What a call makes -/

/-- Whether the loop goes on after an attempt. -/
def goes_on (env : ToolEnv) (spec : ToolSpec) (a : Attempt) : Bool :=
  match attempt_result env spec a.outcome with
  | .ok _ => false
  | .error e => (retried env e).isSome

/-- The attempts that a call may make. -/
def tries (policy : ToolCallPolicy) (call : ToolCall) : List Attempt :=
  (List.range (policy.retry_max + 1)).map call.attempts

/-- How many attempts fail, before one ends the call. -/
def failing (env : ToolEnv) (spec : ToolSpec) (attempts : List Attempt) : Nat :=
  (attempts.takeWhile (goes_on env spec)).length

/-- The attempts that are made: the failing ones, and the one after them. -/
def made (env : ToolEnv) (spec : ToolSpec) (attempts : List Attempt) : List Attempt :=
  attempts.take (failing env spec attempts + 1)

/-- The policy of a call that gets as far as its attempts. -/
def let_through (env : ToolEnv) (call : ToolCall) (w : ToolWorld) : Option ToolCallPolicy :=
  match from_env env.environ with
  | .error _ => none
  | .ok policy =>
    if call.spec.name ∈ policy.disabled_tools ∨ call.spec.risk_level ∈ policy.disabled_risk_levels
    then none
    else
      match env.validate (.dict call.spec.input_schema) call.input_payload with
      | .valid =>
        if (is_circuit_open w.circuits call.spec.name policy (env.monotonic w.moments)).1 then none
        else some policy
      | _ => none

/-- The world of a call at its first attempt. -/
def checked (env : ToolEnv) (policy : ToolCallPolicy) (call : ToolCall) (w : ToolWorld) : ToolWorld :=
  ⟨(is_circuit_open w.circuits call.spec.name policy (env.monotonic w.moments)).2, w.moments + 1⟩

/-- The check changes a circuit only when the reset time is over. -/
theorem is_circuit_open.spec (circuits : Circuits) (name : String) (policy : ToolCallPolicy) (now : Rat)
    (tool : String) :
    circuit_state (is_circuit_open circuits name policy now).2 tool =
      if tool = name ∧ ∃ opened_at, (circuit_state circuits name).opened_at = some opened_at ∧
        policy.cb_reset_s ≤ now - opened_at then ⟨0, none⟩ else circuit_state circuits tool := by
  have hsame : circuit_state (circuits.set name (circuit_state circuits name)) tool =
      circuit_state circuits tool := by
    unfold circuit_state
    rw [Dict.get?_set]
    split
    · rename_i hname
      rw [hname]
      rfl
    · rfl
  have hclosed : circuit_state (circuits.set name ⟨0, none⟩) tool =
      if tool = name then ⟨0, none⟩ else circuit_state circuits tool := by
    unfold circuit_state
    rw [Dict.get?_set]
    split <;> rfl
  unfold is_circuit_open
  dsimp only
  cases hopened : (circuit_state circuits name).opened_at with
  | none => simp [hsame]
  | some opened_at =>
    dsimp only
    by_cases hreset : policy.cb_reset_s ≤ now - opened_at
    · rw [if_pos hreset, hclosed]
      simp [hreset]
    · rw [if_neg hreset, hsame]
      simp [hreset]

theorem opened_unchanged {name : String} {now : Rat}
    (h : (is_circuit_open w.circuits name policy now).1 = true) (tool : String) :
    circuit_state (is_circuit_open w.circuits name policy now).2 tool =
      circuit_state w.circuits tool := by
  rw [is_circuit_open.spec, if_neg]
  rintro ⟨-, opened_at, hopened, hreset⟩
  unfold is_circuit_open at h
  simp [hopened, hreset] at h

theorem execute_tool.spec (env : ToolEnv) (call : ToolCall) (w : ToolWorld) :
    match let_through env call w with
    | none => (execute_tool env call w).events = [] ∧
        (∃ e, (execute_tool env call w).outcome = .error e) ∧
          ∀ tool, circuit_state (execute_tool env call w).world.circuits tool =
            circuit_state w.circuits tool
    | some policy => from_env env.environ = .ok policy ∧
        (is_circuit_open w.circuits call.spec.name policy (env.monotonic w.moments)).1 = false ∧
          execute_tool env call w =
            attempt_loop env policy call.spec (tries policy call) (checked env policy call w) none
              false := by
  unfold let_through execute_tool
  cases from_env env.environ with
  | error e => exact ⟨rfl, ⟨_, rfl⟩, fun _ => rfl⟩
  | ok policy =>
    dsimp only
    by_cases hdisabled : call.spec.name ∈ policy.disabled_tools ∨
        call.spec.risk_level ∈ policy.disabled_risk_levels
    · rw [if_pos hdisabled, if_pos hdisabled]
      exact ⟨rfl, ⟨_, rfl⟩, fun _ => rfl⟩
    rw [if_neg hdisabled, if_neg hdisabled]
    cases env.validate (.dict call.spec.input_schema) call.input_payload with
    | invalid message => exact ⟨rfl, ⟨_, rfl⟩, fun _ => rfl⟩
    | raises e => exact ⟨rfl, ⟨_, rfl⟩, fun _ => rfl⟩
    | valid =>
      dsimp only
      by_cases hopen :
          (is_circuit_open w.circuits call.spec.name policy (env.monotonic w.moments)).1 = true
      · rw [if_pos hopen, if_pos hopen]
        exact ⟨rfl, ⟨_, rfl⟩, opened_unchanged hopen⟩
      · rw [if_neg hopen, if_neg hopen]
        exact ⟨rfl, by simpa using hopen, rfl⟩

/-- The three ways of an attempt: it returns, it raises, or the loop goes on. -/
theorem attempt_loop.step (env : ToolEnv) (policy : ToolCallPolicy) (s : ToolSpec) (a : Attempt)
    (rest : List Attempt) (w : ToolWorld) (last_error : Option String) (saw_timeout : Bool) :
    let submitted := Event.submitted s.name (env.monotonic w.moments) a
    let now := env.monotonic (w.moments + 1)
    let called := attempt_loop env policy s (a :: rest) w last_error saw_timeout
    (goes_on env s a = false ∧ ∃ result,
      called = ⟨.ok result, ⟨record_success w.circuits s.name, w.moments + 2⟩,
        [submitted, .succeeded s.name now]⟩) ∨
    (goes_on env s a = false ∧ ∃ e,
      called = ⟨.error e, ⟨w.circuits, w.moments + 2⟩, [submitted]⟩) ∨
    (goes_on env s a = true ∧ ∃ later last_error' saw_timeout',
      later = attempt_loop env policy s rest
        ⟨record_failure w.circuits s.name policy now, w.moments + 2⟩ last_error' saw_timeout' ∧
      called = { later with events := submitted :: .failed s.name now :: later.events }) := by
  unfold goes_on
  simp only [attempt_loop]
  cases attempt_result env s a.outcome with
  | ok result => exact .inl ⟨rfl, result, rfl⟩
  | error e =>
    dsimp only
    cases retried env e with
    | none => exact .inr (.inl ⟨rfl, e, rfl⟩)
    | some text => exact .inr (.inr ⟨rfl, _, _, _, rfl, rfl⟩)

/-! ## How often `invoke` runs -/

/-- The attempts that were submitted. -/
def attempts_in (events : List Event) : List Attempt :=
  events.filterMap fun
    | .submitted _ _ a => some a
    | _ => none

theorem made_cons (s : ToolSpec) (a : Attempt) (rest : List Attempt) :
    made env s (a :: rest) = a :: if goes_on env s a then made env s rest else [] := by
  unfold made failing
  rw [List.takeWhile_cons, List.take_succ_cons]
  split
  · rw [List.length_cons]
  · rw [List.length_nil, List.take_zero]

/-- The loop makes the failing attempts and the one after them. -/
theorem attempts_in_loop (s : ToolSpec) (attempts : List Attempt) (w : ToolWorld)
    (last_error : Option String) (saw_timeout : Bool) :
    attempts_in (attempt_loop env policy s attempts w last_error saw_timeout).events =
      made env s attempts := by
  induction attempts generalizing w last_error saw_timeout with
  | nil => rfl
  | cons a rest ih =>
    rw [made_cons]
    obtain ⟨hends, result, hcalled⟩ | ⟨hends, e, hcalled⟩ | ⟨hgoes, later, text, saw, hlater, hcalled⟩ :=
      attempt_loop.step env policy s a rest w last_error saw_timeout
    · rw [hcalled, hends]
      rfl
    · rw [hcalled, hends]
      rfl
    · have hrest := ih ⟨record_failure w.circuits s.name policy (env.monotonic (w.moments + 1)),
        w.moments + 2⟩ text saw
      rw [← hlater] at hrest
      rw [hcalled, hgoes, if_pos rfl, ← hrest]
      rfl

/-- `invoke` runs at most once, and a call that raises has applied its effect
at most once. -/
structure AtMostOnce (called : Called) : Prop where
  runs : (attempts_in called.events).countP Attempt.started ≤ 1
  effects : ∀ e, called.outcome = .error e →
    (attempts_in called.events).countP (fun a => a.started && a.applied) ≤ 1

/-- The call is refused, or it has one attempt, or its first attempt ends it,
or all its attempts but one were not started. -/
def OneRun (env : ToolEnv) (call : ToolCall) (w : ToolWorld) : Prop :=
  ∀ policy, let_through env call w = some policy → policy.retry_max = 0 ∨
    goes_on env call.spec (call.attempts 0) = false ∨
      (made env call.spec (tries policy call)).countP Attempt.started ≤ 1

theorem tries_cons (policy : ToolCallPolicy) (call : ToolCall) : tries policy call =
    call.attempts 0 :: (List.range policy.retry_max).map (fun i => call.attempts (i + 1)) := by
  unfold tries
  rw [List.range_succ_eq_map, List.map_cons, List.map_map]
  rfl

theorem made_one (h : policy.retry_max = 0 ∨ goes_on env call.spec (call.attempts 0) = false) :
    made env call.spec (tries policy call) = [call.attempts 0] := by
  rw [tries_cons, made_cons]
  rcases h with hzero | hends
  · rw [hzero]
    split <;> rfl
  · rw [hends]
    rfl

/-- A call runs `invoke` at most once exactly when its attempts say so. -/
theorem invoke_runs_once_iff (env : ToolEnv) (call : ToolCall) (w : ToolWorld) :
    AtMostOnce (execute_tool env call w) ↔ OneRun env call w := by
  have hcall := execute_tool.spec env call w
  have hfewer : ∀ attempts : List Attempt,
      attempts.countP (fun a => a.started && a.applied) ≤ attempts.countP Attempt.started := by
    intro attempts
    apply List.countP_mono_left
    intro a _ h
    exact (Bool.and_eq_true_iff.1 h).1
  unfold OneRun
  cases hthrough : let_through env call w with
  | none =>
    rw [hthrough] at hcall
    obtain ⟨hevents, -, -⟩ := hcall
    refine ⟨fun _ policy hpolicy => (Option.some_ne_none policy hpolicy.symm).elim, fun _ => ?_⟩
    constructor
    · rw [hevents]
      exact Nat.zero_le 1
    · intro e _
      rw [hevents]
      exact Nat.zero_le 1
  | some policy =>
    rw [hthrough] at hcall
    obtain ⟨-, -, hloop⟩ := hcall
    have hmade : attempts_in (execute_tool env call w).events =
        made env call.spec (tries policy call) := by
      rw [hloop]
      exact attempts_in_loop call.spec (tries policy call) _ none false
    constructor
    · intro honce other hother
      cases hother
      rw [← hmade]
      exact .inr (.inr honce.runs)
    · intro hone
      have hruns : (attempts_in (execute_tool env call w).events).countP Attempt.started ≤ 1 := by
        rw [hmade]
        rcases hone policy rfl with hzero | hends | hfew
        · rw [made_one (.inl hzero)]
          exact List.countP_le_length
        · rw [made_one (.inr hends)]
          exact List.countP_le_length
        · exact hfew
      exact ⟨hruns, fun e _ => (hfewer _).trans hruns⟩

/-- The default settings, but for some variables. -/
def calm_tool_env (environ : String → Option String) : ToolEnv where
  environ := environ
  validate _ _ := .valid
  text_of _ := ""
  monotonic n := n
  never_back _ _ h := Nat.cast_le.2 h

/-- A call whose attempts all come late: each one still has its effect. -/
def late_call (s : ToolSpec) : ToolCall where
  spec := s
  input_payload := [("item_id", .str "dlq_1"), ("hold_id", .str "hold_1"), ("release_id", .str "r1"),
    ("reason", .str "r"), ("reviewer_id", .str "u1"), ("reviewer_id_2", .str "u2"),
    ("selector", .dict []), ("score_calibration", .dict []), ("tool_policy", .dict [])]
  attempts _ := ⟨.timed_out true, true⟩

/-- A default tool, with one retry in the environment. -/
theorem no_retry_runs_twice : ∃ s ∈ init_default_tools, s.timeout_retry_policy = "no_retry" ∧
    ¬AtMostOnce (execute_tool (calm_tool_env fun name =>
      if name = "TOOL_CALL_RETRY_MAX" then some "1" else none) (late_call s) ⟨Dict.empty, 0⟩) := by
  refine ⟨_, List.mem_cons_self, rfl, fun honce => ?_⟩
  exact absurd honce.runs (by decide +kernel)

/-! ## The breaker -/

/-- An event of a tool, as its breaker has it. -/
def breaker_event (tool : String) : Event → Option (breaker.Event Rat)
  | .submitted name t _ => if name = tool then some (.attempted t) else none
  | .failed name t => if name = tool then some (.failed t) else none
  | .succeeded name t => if name = tool then some (.succeeded t) else none

def events_of (tool : String) (events : List Event) : List (breaker.Event Rat) :=
  events.filterMap (breaker_event tool)

/-- The circuit is in the state of a breaker, which is open at the threshold. -/
structure InState (policy : ToolCallPolicy) (circuit : CircuitState) (b : breaker.Breaker Rat) :
    Prop where
  same : circuit = ⟨b.consecutive, b.reached_at⟩
  below : b.reached_at = none → b.consecutive < policy.cb_failure_threshold

/-- The breaker lets the events of a tool through, and it is followed. -/
structure Follows (policy : ToolCallPolicy) (tool : String) (b : breaker.Breaker Rat)
    (events : List Event) (circuits : Circuits) : Prop where
  allowed : breaker.AllAllowed policy.cb_failure_threshold (policy.cb_reset_s : Rat) b
    (events_of tool events)
  ends : InState policy (circuit_state circuits tool)
    ((events_of tool events).foldl
      (breaker.saw policy.cb_failure_threshold (policy.cb_reset_s : Rat)) b)

theorem circuit_state_set (circuits : Circuits) (name : String) (state : CircuitState) (tool : String) :
    circuit_state (circuits.set name state) tool =
      if tool = name then state else circuit_state circuits tool := by
  unfold circuit_state
  rw [Dict.get?_set]
  split <;> rfl

theorem closed_in_state (policy : ToolCallPolicy) : InState policy ⟨0, none⟩ breaker.closed :=
  ⟨rfl, fun _ => policy.threshold_pos⟩

theorem failing_cons (s : ToolSpec) (a : Attempt) (rest : List Attempt) :
    failing env s (a :: rest) = if goes_on env s a then failing env s rest + 1 else 0 := by
  unfold failing
  rw [List.takeWhile_cons]
  split <;> simp

theorem events_of_submitted (s : ToolSpec) (t : Rat) (a : Attempt) (later : List Event) :
    events_of s.name (.submitted s.name t a :: later) =
      .attempted t :: events_of s.name later := by
  simp [events_of, breaker_event]

theorem events_of_failed (s : ToolSpec) (t : Rat) (later : List Event) :
    events_of s.name (.failed s.name t :: later) = .failed t :: events_of s.name later := by
  simp [events_of, breaker_event]

/-- The first event of the loop is the first attempt. -/
theorem attempt_loop.first (env : ToolEnv) (policy : ToolCallPolicy) (s : ToolSpec) (a : Attempt)
    (rest : List Attempt) (w : ToolWorld) (last_error : Option String) (saw_timeout : Bool) :
    ∃ later, (attempt_loop env policy s (a :: rest) w last_error saw_timeout).events =
      .submitted s.name (env.monotonic w.moments) a :: later := by
  obtain ⟨-, result, hcalled⟩ | ⟨-, e, hcalled⟩ | ⟨-, later, text, saw, -, hcalled⟩ :=
    attempt_loop.step env policy s a rest w last_error saw_timeout
  · exact ⟨_, by rw [hcalled]⟩
  · exact ⟨_, by rw [hcalled]⟩
  · exact ⟨_, by rw [hcalled]⟩

/-- A failure, as the circuit records it and as the breaker sees it. -/
theorem record_failure.follows (s : ToolSpec) (circuits : Circuits) (now : Rat)
    {b : breaker.Breaker Rat} (hstate : InState policy (circuit_state circuits s.name) b)
    (hclosed : b.reached_at = none) :
    InState policy (circuit_state (record_failure circuits s.name policy now) s.name)
      (breaker.saw policy.cb_failure_threshold (policy.cb_reset_s : Rat) b (.failed now)) := by
  unfold record_failure
  dsimp only
  rw [circuit_state_set, if_pos rfl, hstate.same, hclosed]
  unfold breaker.saw
  dsimp only
  rw [hclosed, Option.none_or]
  refine ⟨rfl, fun hnone => ?_⟩
  dsimp only at hnone ⊢
  split at hnone
  · cases hnone
  · omega

/-- The loop of a closed breaker, when no attempt comes after the failure that opens it. -/
theorem attempt_loop.follows (env : ToolEnv) (policy : ToolCallPolicy) (s : ToolSpec)
    (attempts : List Attempt) (w : ToolWorld) (last_error : Option String) (saw_timeout : Bool)
    {b : breaker.Breaker Rat} (hstate : InState policy (circuit_state w.circuits s.name) b) (hclosed : b.reached_at = none)
    (hfew : b.consecutive + min (failing env s attempts) (attempts.length - 1) <
      policy.cb_failure_threshold) :
    Follows policy s.name b (attempt_loop env policy s attempts w last_error saw_timeout).events
      (attempt_loop env policy s attempts w last_error saw_timeout).world.circuits := by
  induction attempts generalizing w last_error saw_timeout b with
  | nil => exact ⟨trivial, hstate⟩
  | cons a rest ih =>
    have hattempt : ∀ t, breaker.saw policy.cb_failure_threshold (policy.cb_reset_s : Rat) b
        (.attempted t) = b := fun t => breaker.saw_attempted hclosed t
    have hfirst : ∀ t, breaker.Allowed (policy.cb_reset_s : Rat) b (.attempted t) :=
      fun t => breaker.allowed_of_closed hclosed _
    obtain ⟨-, result, hcalled⟩ | ⟨-, e, hcalled⟩ | ⟨hgoes, later, text, saw, hlater, hcalled⟩ :=
      attempt_loop.step env policy s a rest w last_error saw_timeout
    · rw [hcalled]
      refine ⟨?_, ?_⟩
      · rw [events_of_submitted]
        refine ⟨hfirst _, ?_⟩
        simp [events_of, breaker_event, breaker.AllAllowed, breaker.Allowed]
      · rw [events_of_submitted, List.foldl_cons, hattempt]
        simp only [record_success, circuit_state_set, if_true]
        simp [events_of, breaker_event, breaker.saw]
        exact closed_in_state policy
    · rw [hcalled]
      refine ⟨?_, ?_⟩
      · rw [events_of_submitted]
        exact ⟨hfirst _, trivial⟩
      · rw [events_of_submitted, List.foldl_cons, hattempt]
        exact hstate
    · have hnext := record_failure.follows s w.circuits (env.monotonic (w.moments + 1)) hstate hclosed
      have hfollows : Follows policy s.name (breaker.saw policy.cb_failure_threshold
          (policy.cb_reset_s : Rat) b (.failed (env.monotonic (w.moments + 1)))) later.events
            later.world.circuits := by
        rw [hlater]
        cases rest with
        | nil => exact ⟨trivial, hnext⟩
        | cons a' rest =>
          -- another attempt comes, so the failure has not opened the breaker
          rw [failing_cons, hgoes, if_pos rfl, List.length_cons] at hfew
          have hunder : ¬policy.cb_failure_threshold ≤ b.consecutive + 1 := by
            rw [List.length_cons] at hfew
            omega
          apply ih _ _ _ hnext
          · unfold breaker.saw
            dsimp only
            rw [if_neg hunder, hclosed]
          · unfold breaker.saw
            dsimp only
            rw [List.length_cons] at hfew ⊢
            omega
      rw [hcalled]
      refine ⟨?_, ?_⟩
      · rw [events_of_submitted, events_of_failed]
        refine ⟨hfirst _, trivial, ?_⟩
        rw [hattempt]
        exact hfollows.allowed
      · rw [events_of_submitted, events_of_failed, List.foldl_cons, hattempt, List.foldl_cons]
        exact hfollows.ends

/-- A call of one tool is no event of another, and leaves its circuit. -/
theorem attempt_loop.others (env : ToolEnv) (policy : ToolCallPolicy) (s : ToolSpec)
    (attempts : List Attempt) (w : ToolWorld) (last_error : Option String) (saw_timeout : Bool)
    (hother : tool ≠ s.name) :
    events_of tool (attempt_loop env policy s attempts w last_error saw_timeout).events = [] ∧
      circuit_state (attempt_loop env policy s attempts w last_error saw_timeout).world.circuits tool =
        circuit_state w.circuits tool := by
  have hname : s.name ≠ tool := Ne.symm hother
  induction attempts generalizing w last_error saw_timeout with
  | nil => exact ⟨rfl, rfl⟩
  | cons a rest ih =>
    obtain ⟨-, result, hcalled⟩ | ⟨-, e, hcalled⟩ | ⟨-, later, text, saw, hlater, hcalled⟩ :=
      attempt_loop.step env policy s a rest w last_error saw_timeout
    · rw [hcalled]
      simp [events_of, breaker_event, hname, hother, record_success, circuit_state_set]
    · rw [hcalled]
      simp [events_of, breaker_event, hname]
    · obtain ⟨hevents, hcircuits⟩ := ih ⟨record_failure w.circuits s.name policy
        (env.monotonic (w.moments + 1)), w.moments + 2⟩ text saw
      rw [← hlater] at hevents hcircuits
      rw [hcalled]
      unfold record_failure at hcircuits
      dsimp only at hcircuits
      rw [circuit_state_set, if_neg hother] at hcircuits
      refine ⟨?_, hcircuits⟩
      unfold events_of at hevents ⊢
      simp [breaker_event, hname, hevents]

/-! ## Calls in a row -/

/-- No attempt of the call comes after the failure with which the count
reaches the threshold. -/
def Careful (env : ToolEnv) (w : ToolWorld) (call : ToolCall) : Prop :=
  ∀ policy, let_through env call w = some policy →
    (circuit_state (checked env policy call w).circuits call.spec.name).failures +
      min (failing env call.spec (tries policy call)) policy.retry_max < policy.cb_failure_threshold

/-- A call that is let through finds its breaker closed, or its reset time over. -/
theorem checked_state (hthrough : let_through env call w = some policy) {b : breaker.Breaker Rat}
    (hstate : InState policy (circuit_state w.circuits call.spec.name) b) :
    (b.reached_at = none ∧ circuit_state (checked env policy call w).circuits call.spec.name =
      circuit_state w.circuits call.spec.name) ∨
    ∃ opened_at, b.reached_at = some opened_at ∧
      opened_at + policy.cb_reset_s ≤ env.monotonic (checked env policy call w).moments ∧
        circuit_state (checked env policy call w).circuits call.spec.name = ⟨0, none⟩ := by
  have hcall := execute_tool.spec env call w
  have hchecked := is_circuit_open.spec w.circuits call.spec.name policy
    (env.monotonic w.moments) call.spec.name
  rw [hthrough] at hcall
  obtain ⟨-, hopen, -⟩ := hcall
  cases hreached : b.reached_at with
  | none =>
    refine .inl ⟨rfl, hchecked.trans (if_neg ?_)⟩
    rintro ⟨-, opened_at, hopened, -⟩
    rw [hstate.same, hreached] at hopened
    cases hopened
  | some opened_at =>
    -- the reset time is over, so the count begins again
    have hopened : (circuit_state w.circuits call.spec.name).opened_at = some opened_at := by
      rw [hstate.same, hreached]
    have hreset : (policy.cb_reset_s : Rat) ≤ env.monotonic w.moments - opened_at := by
      by_contra hnot
      unfold is_circuit_open at hopen
      simp [hopened, hnot] at hopen
    have hmoment : env.monotonic w.moments ≤ env.monotonic (checked env policy call w).moments :=
      env.never_back (Nat.le_succ _)
    refine .inr ⟨opened_at, rfl, by linarith, hchecked.trans (if_pos ?_)⟩
    exact ⟨rfl, opened_at, hopened, hreset⟩

theorem execute_tool.follows (hpolicy : from_env env.environ = .ok policy) (hcareful : Careful env w call)
    {b : breaker.Breaker Rat} (hstate : InState policy (circuit_state w.circuits call.spec.name) b) :
    Follows policy call.spec.name b (execute_tool env call w).events
      (execute_tool env call w).world.circuits := by
  have hcall := execute_tool.spec env call w
  cases hthrough : let_through env call w with
  | none =>
    rw [hthrough] at hcall
    obtain ⟨hevents, -, hcircuits⟩ := hcall
    refine ⟨?_, ?_⟩
    · rw [hevents]
      trivial
    · rw [hevents, hcircuits]
      exact hstate
  | some policy' =>
    rw [hthrough] at hcall
    obtain ⟨hsame, hopen, hloop⟩ := hcall
    cases hpolicy.symm.trans hsame
    have hfew := hcareful policy hthrough
    have hlength : (tries policy call).length - 1 = policy.retry_max := by simp [tries]
    rw [← hlength] at hfew
    rw [hloop]
    obtain ⟨hclosed, hcircuit⟩ | ⟨opened_at, hreached, hlate, hcircuit⟩ := checked_state hthrough hstate
    · rw [hcircuit, hstate.same] at hfew
      exact attempt_loop.follows _ _ _ _ _ _ _ (by rw [hcircuit]; exact hstate) hclosed hfew
    · rw [hcircuit] at hfew
      have hbegin := attempt_loop.follows env policy call.spec (tries policy call)
        (checked env policy call w) none false (by rw [hcircuit]; exact closed_in_state policy) rfl hfew
      rw [tries_cons] at hbegin ⊢
      obtain ⟨later, hlater⟩ := attempt_loop.first env policy call.spec (call.attempts 0)
        ((List.range policy.retry_max).map fun i => call.attempts (i + 1))
        (checked env policy call w) none false
      obtain ⟨hallowed, hends⟩ := hbegin
      rw [hlater, events_of_submitted] at hallowed hends
      refine ⟨?_, ?_⟩
      · rw [hlater, events_of_submitted]
        refine ⟨breaker.allowed_late hreached hlate, ?_⟩
        rw [breaker.saw_attempted_late hreached hlate]
        exact hallowed.2
      · rw [hlater, events_of_submitted, List.foldl_cons, breaker.saw_attempted_late hreached hlate]
        exact hends

theorem execute_tool.others (env : ToolEnv) (call : ToolCall) (w : ToolWorld)
    (hother : tool ≠ call.spec.name) :
    events_of tool (execute_tool env call w).events = [] ∧
      circuit_state (execute_tool env call w).world.circuits tool = circuit_state w.circuits tool := by
  have hcall := execute_tool.spec env call w
  cases hthrough : let_through env call w with
  | none =>
    rw [hthrough] at hcall
    obtain ⟨hevents, -, hcircuits⟩ := hcall
    rw [hevents]
    exact ⟨rfl, hcircuits tool⟩
  | some policy =>
    rw [hthrough] at hcall
    obtain ⟨-, -, hloop⟩ := hcall
    obtain ⟨hevents, hcircuits⟩ := attempt_loop.others env policy call.spec
      (tries policy call) (checked env policy call w) none false hother
    rw [hloop]
    refine ⟨hevents, hcircuits.trans ?_⟩
    exact (is_circuit_open.spec _ _ _ _ _).trans (if_neg fun h => hother h.1)

/-- Every call of the run is careful in the world it is made in. -/
def CarefulRun (env : ToolEnv) : List ToolCall → ToolWorld → Prop
  | [], _ => True
  | call :: rest, w => Careful env w call ∧ CarefulRun env rest (execute_tool env call w).world

theorem Follows.append {b : breaker.Breaker Rat} {events later : List Event} {circuits circuits' : Circuits}
    (h : Follows policy tool b events circuits)
    (hlater : Follows policy tool ((events_of tool events).foldl
      (breaker.saw policy.cb_failure_threshold (policy.cb_reset_s : Rat)) b) later circuits') :
    Follows policy tool b (events ++ later) circuits' := by
  have happend : events_of tool (events ++ later) = events_of tool events ++ events_of tool later :=
    List.filterMap_append
  refine ⟨?_, ?_⟩
  · rw [happend]
    exact breaker.all_allowed_append.2 ⟨h.allowed, hlater.allowed⟩
  · rw [happend, List.foldl_append]
    exact hlater.ends

theorem run_calls.follows (hpolicy : from_env env.environ = .ok policy) (calls : List ToolCall)
    {b : String → breaker.Breaker Rat} (hcareful : CarefulRun env calls w)
    (hstate : ∀ tool, InState policy (circuit_state w.circuits tool) (b tool)) (tool : String) :
    Follows policy tool (b tool) (run_calls env calls w).2 (run_calls env calls w).1.circuits := by
  induction calls generalizing w b with
  | nil => exact ⟨trivial, hstate tool⟩
  | cons call rest ih =>
    obtain ⟨hfirst, hrest⟩ := hcareful
    have hone : ∀ tool, Follows policy tool (b tool) (execute_tool env call w).events
        (execute_tool env call w).world.circuits := by
      intro tool
      by_cases hname : tool = call.spec.name
      · rw [hname]
        exact execute_tool.follows hpolicy hfirst (hstate _)
      · obtain ⟨hevents, hcircuits⟩ := execute_tool.others env call w hname
        refine ⟨?_, ?_⟩
        · rw [hevents]
          trivial
        · rw [hevents, hcircuits]
          exact hstate tool
    exact (hone tool).append (ih hrest fun tool => (hone tool).ends)

/-- In a run of careful calls the breaker of every tool stops all attempts
while it is open, and its circuit has the count of the failures in a row. -/
theorem breaker_stops_in_careful_runs (env : ToolEnv) (policy : ToolCallPolicy)
    (hpolicy : from_env env.environ = .ok policy) (calls : List ToolCall) (moments : Nat)
    (hcareful : CarefulRun env calls ⟨Dict.empty, moments⟩) (tool : String) :
    breaker.Stops policy.cb_failure_threshold (policy.cb_reset_s : Rat)
      (events_of tool (run_calls env calls ⟨Dict.empty, moments⟩).2) ∧
    circuit_state (run_calls env calls ⟨Dict.empty, moments⟩).1.circuits tool =
      ⟨(breaker.seen policy.cb_failure_threshold (policy.cb_reset_s : Rat)
          (events_of tool (run_calls env calls ⟨Dict.empty, moments⟩).2)).consecutive,
        (breaker.seen policy.cb_failure_threshold (policy.cb_reset_s : Rat)
          (events_of tool (run_calls env calls ⟨Dict.empty, moments⟩).2)).reached_at⟩ := by
  obtain ⟨hallowed, hends⟩ := run_calls.follows (w := ⟨Dict.empty, moments⟩)
    (b := fun _ => breaker.closed) hpolicy calls hcareful (fun _ => closed_in_state policy) tool
  exact ⟨breaker.stops_of_all_allowed hallowed, hends.same⟩

/-- Calls without retries, as the default settings have them, are careful. -/
theorem careful_without_retries (hpolicy : from_env env.environ = .ok policy)
    (hretry : policy.retry_max = 0) (calls : List ToolCall) {b : String → breaker.Breaker Rat}
    (hstate : ∀ tool, InState policy (circuit_state w.circuits tool) (b tool)) :
    CarefulRun env calls w := by
  induction calls generalizing w b with
  | nil => trivial
  | cons call rest ih =>
    have hcareful : Careful env w call := by
      intro other hthrough
      have hcall := execute_tool.spec env call w
      rw [hthrough] at hcall
      cases hpolicy.symm.trans hcall.1
      rw [hretry, Nat.min_zero, Nat.add_zero]
      obtain ⟨hclosed, hcircuit⟩ | ⟨_, -, -, hcircuit⟩ := checked_state hthrough (hstate _)
      · rw [hcircuit, (hstate _).same]
        exact (hstate _).below hclosed
      · rw [hcircuit]
        exact policy.threshold_pos
    have hone := fun tool => (run_calls.follows hpolicy [call] ⟨hcareful, trivial⟩ hstate tool).ends
    exact ⟨hcareful, ih hone⟩

/-- Four late tunings: the last is refused. -/
theorem fourth_failure_is_refused : ∃ policy,
    from_env (calm_tool_env fun _ => none).environ = .ok policy ∧
    breaker.Stops policy.cb_failure_threshold (policy.cb_reset_s : Rat)
      (events_of "strategy_tuning_apply" (run_calls (calm_tool_env fun _ => none)
        (List.replicate 4 (late_call strategy_tuning_apply)) ⟨Dict.empty, 0⟩).2) := by
  have hdefault : (from_env (calm_tool_env fun _ => none).environ).toOption.map
      (fun policy => policy.retry_max) = some 0 := by decide +kernel
  cases hpolicy : from_env (calm_tool_env fun _ => none).environ with
  | error e =>
    rw [hpolicy] at hdefault
    cases hdefault
  | ok policy =>
    rw [hpolicy] at hdefault
    have hcareful := careful_without_retries (w := ⟨Dict.empty, 0⟩) (b := fun _ => breaker.closed) hpolicy
      (Option.some.inj hdefault) (List.replicate 4 (late_call strategy_tuning_apply))
      fun _ => closed_in_state policy
    exact ⟨policy, rfl, (breaker_stops_in_careful_runs _ policy hpolicy _ 0 hcareful _).1⟩

/-- With the threshold at one and one retry, the retry comes one moment after
the failure that opened the breaker. -/
theorem retry_passes_an_open_breaker : ∃ environ policy,
    from_env environ = .ok policy ∧
    ¬breaker.Stops policy.cb_failure_threshold (policy.cb_reset_s : Rat)
      (events_of "strategy_tuning_apply" (run_calls (calm_tool_env environ)
        [late_call strategy_tuning_apply] ⟨Dict.empty, 0⟩).2) := by
  refine ⟨fun name => if name = "TOOL_CALL_RETRY_MAX" ∨ name = "TOOL_CALL_CB_THRESHOLD" then some "1"
    else none, _, rfl, fun hstops => ?_⟩
  have hlate := hstops [.attempted 1, .failed 2] 3 [.failed 4] rfl 2 rfl
  exact absurd hlate (by decide +kernel)

end bid_evaluation.tool_laws
