-- The laws of the gates on latencies: each of them counts the calls that were
-- fast enough, and only that.
import BidEvaluation.LatencyGates
import Mathlib.Tactic.Linarith
import Mathlib.Tactic.FieldSimp
import Mathlib.Tactic.NormNum

open quantile bid_evaluation.values bid_evaluation.latency_gates

namespace bid_evaluation.latency_laws

/-! ## The probe -/

theorem percentile_le_iff {values : List Rat} (hne : values ≠ []) {ratio : Rat} (hpos : 0 < ratio)
    (hlt : ratio < 1) (limit : Rat) :
    percentile values ratio ≤ limit ↔ ratio * values.length ≤ within limit values := by
  have hlength : 0 < values.length := List.length_pos_iff.2 hne
  have hreal : (0 : Rat) < values.length := by exact_mod_cast hlength
  have hceil : 0 < ⌈ratio * values.length⌉₊ := Nat.ceil_pos.2 (mul_pos hpos hreal)
  have hinside : ⌈ratio * values.length⌉₊ ≤ values.length := by
    rw [Nat.ceil_le]
    nlinarith
  have hrank : ⌈ratio * values.length⌉₊ - 1 < values.length := by omega
  obtain ⟨x, hx, hiff⟩ := atRank_le_iff hrank limit
  unfold percentile
  rw [if_neg hne, if_neg (not_le.2 hpos), if_neg (not_le.2 hlt)]
  dsimp only
  rw [max_eq_right (Nat.succ_le_of_lt hceil), hx, Option.getD_some, hiff, ← Nat.ceil_le]
  omega

/-- How many requests were answered with an error. -/
def failed_requests (status_codes : List Int) : Nat :=
  status_codes.countP fun status => status ≥ 400

/-- The summary of some requests. -/
theorem summarized {latencies_ms : List Rat} {status_codes : List Int} {summary : ProbeSummary}
    (hne : latencies_ms ≠ []) (h : summarize_http_probe latencies_ms status_codes = .ok summary) :
    summary.p95_ms = percentile latencies_ms (19 / 20) ∧
      summary.error_rate = failed_requests status_codes / latencies_ms.length := by
  unfold summarize_http_probe at h
  dsimp only at h
  split at h
  · cases h
  · rw [if_neg (mt List.length_eq_zero_iff.1 hne)] at h
    cases h
    exact ⟨rfl, rfl⟩

theorem slo_passed_iff (fixed : Nat → Rat → String) (summary : ProbeSummary)
    (p95_limit_ms error_rate_limit : Rat) :
    (evaluate_latency_slo fixed summary p95_limit_ms error_rate_limit).passed = true ↔
      summary.p95_ms ≤ p95_limit_ms ∧ summary.error_rate ≤ error_rate_limit := by
  unfold evaluate_latency_slo
  dsimp only
  rw [decide_eq_true_iff, List.length_eq_zero_iff, List.append_eq_nil_iff]
  rw [ite_eq_right_iff, ite_eq_right_iff, ← not_lt, ← not_lt]
  simp

theorem probe_passed_iff (fixed : Nat → Rat → String) {latencies_ms : List Rat}
    {status_codes : List Int} {summary : ProbeSummary} (hne : latencies_ms ≠ [])
    (h : summarize_http_probe latencies_ms status_codes = .ok summary)
    (p95_limit_ms error_rate_limit : Rat) :
    (evaluate_latency_slo fixed summary p95_limit_ms error_rate_limit).passed = true ↔
      19 * latencies_ms.length ≤ 20 * within p95_limit_ms latencies_ms ∧
        failed_requests status_codes ≤ error_rate_limit * latencies_ms.length := by
  have hreal : (0 : Rat) < latencies_ms.length := by
    exact_mod_cast List.length_pos_iff.2 hne
  obtain ⟨hp95, hrate⟩ := summarized hne h
  rw [slo_passed_iff, hp95, hrate, percentile_le_iff hne (by norm_num) (by norm_num),
    div_le_iff₀ hreal]
  have hcount : (19 / 20 : Rat) * latencies_ms.length ≤ within p95_limit_ms latencies_ms ↔
      19 * latencies_ms.length ≤ 20 * within p95_limit_ms latencies_ms := by
    rw [← Nat.cast_le (α := Rat), Nat.cast_mul, Nat.cast_mul]
    norm_num
    constructor <;> intro hle <;> linarith
  rw [hcount]

/-! ## Benchmarks -/

/-- The times of the calls, of those that raised too. -/
def times (calls : List Timed) : List Rat := calls.map fun call => call.elapsed_ms

theorem run_benchmark_times (name : String) (calls : List Timed) :
    (run_benchmark name calls).latencies_ms = times calls := by
  have hfold : ∀ (calls : List Timed) (result : BenchmarkResult),
      (calls.foldl time_call result).latencies_ms = result.latencies_ms ++ times calls := by
    intro calls
    induction calls with
    | nil => exact fun result => (List.append_nil _).symm
    | cons call rest ih =>
      intro result
      rw [List.foldl_cons, ih]
      exact List.append_assoc _ _ _
  exact hfold calls _

/-- Enough of the times are within the limit: more than 95 in a hundred of
them, or all. -/
def EnoughWithin (limit_ms : Rat) (latencies_ms : List Rat) : Prop :=
  19 * latencies_ms.length < 20 * within limit_ms latencies_ms ∨
    within limit_ms latencies_ms = latencies_ms.length

theorem p95_le_iff {result : BenchmarkResult} (hne : result.latencies_ms ≠ []) (limit_ms : Rat) :
    result.p95_ms ≤ limit_ms ↔ EnoughWithin limit_ms result.latencies_ms := by
  have hlength : 0 < result.latencies_ms.length := List.length_pos_iff.2 hne
  have hrank : min ⌊(result.latencies_ms.length : Rat) * (19 / 20)⌋₊
      (result.latencies_ms.length - 1) < result.latencies_ms.length :=
    lt_of_le_of_lt (min_le_right _ _) (Nat.sub_lt hlength Nat.one_pos)
  obtain ⟨x, hx, hiff⟩ := atRank_le_iff hrank limit_ms
  have hp95 : result.p95_ms = x := by
    unfold BenchmarkResult.p95_ms BenchmarkResult.percentile_ms
    dsimp only
    rw [if_neg (Nat.ne_of_gt hlength), hx, Option.getD_some]
  have hmost := within_le_length limit_ms result.latencies_ms
  have hfloor : ⌊(result.latencies_ms.length : Rat) * (19 / 20)⌋₊ <
        within limit_ms result.latencies_ms ↔
      19 * result.latencies_ms.length < 20 * within limit_ms result.latencies_ms := by
    rw [Nat.floor_lt (by positivity), ← Nat.cast_lt (α := Rat), Nat.cast_mul, Nat.cast_mul]
    norm_num
    constructor <;> intro hlt <;> linarith
  rw [hp95, hiff, min_lt_iff, hfloor]
  unfold EnoughWithin
  constructor
  · rintro (hlt | hlt)
    · exact .inl hlt
    · exact .inr (by omega)
  · rintro (hlt | hall)
    · exact .inl hlt
    · exact .inr (by omega)

theorem p95_s_le_iff {name : String} {calls : List Timed} (hne : calls ≠ []) (limit_s : Rat) :
    (run_benchmark name calls).p95_s ≤ limit_s ↔ EnoughWithin (1000 * limit_s) (times calls) := by
  have htimes : (run_benchmark name calls).latencies_ms ≠ [] := by
    rw [run_benchmark_times]
    exact mt List.map_eq_nil_iff.1 hne
  unfold BenchmarkResult.p95_s
  rw [div_le_iff₀ (by norm_num), mul_comm, p95_le_iff htimes, run_benchmark_times]

/-! ## The gate -/

theorem check_eq_nil (failed : Bool) (name : String) : check failed name = [] ↔ failed = false := by
  unfold check
  cases failed <;> simp

theorem gate_passed_iff (dataset_id : String) (metrics : PerformanceMetrics) :
    (evaluate_performance_gate dataset_id metrics).passed = true ↔
      metrics.api_p95_s ≤ 3 / 2 ∧ metrics.retrieval_p95_s ≤ 4 ∧ metrics.parse_50p_p95_s ≤ 180 ∧
        metrics.evaluation_p95_s ≤ 120 ∧ metrics.queue_dlq_rate ≤ 1 / 100 ∧
          7 / 10 ≤ metrics.cache_hit_rate := by
  unfold evaluate_performance_gate
  dsimp only
  rw [decide_eq_true_iff, List.length_eq_zero_iff]
  simp only [List.append_eq_nil_iff, check_eq_nil, decide_eq_false_iff_not, not_lt, gt_iff_lt,
    and_assoc]

/-- The four benchmarks of a gate. -/
structure Benchmarks where
  api : List Timed
  retrieval : List Timed
  parse : List Timed
  evaluation : List Timed
  dlq_rate : Rat
  cache_hit_rate : Rat

/-- Each benchmark has made a call. -/
structure Benchmarks.Ran (b : Benchmarks) : Prop where
  api : b.api ≠ []
  retrieval : b.retrieval ≠ []
  parse : b.parse ≠ []
  evaluation : b.evaluation ≠ []

/-- `scripts/benchmark_performance.py`. -/
def Benchmarks.gate (b : Benchmarks) (dataset_id : String) : PerformanceGate :=
  evaluate_performance_gate dataset_id (aggregate_to_gate_payload
    (run_benchmark "api_health" b.api) (run_benchmark "retrieval_query" b.retrieval)
    (run_benchmark "parse_upload" b.parse) (run_benchmark "evaluation_create" b.evaluation)
    b.dlq_rate b.cache_hit_rate)

structure Benchmarks.Fast (b : Benchmarks) : Prop where
  api : EnoughWithin 1500 (times b.api)
  retrieval : EnoughWithin 4000 (times b.retrieval)
  parse : EnoughWithin 180000 (times b.parse)
  evaluation : EnoughWithin 120000 (times b.evaluation)
  dlq_rate : b.dlq_rate ≤ 1 / 100
  cache_hit_rate : 7 / 10 ≤ b.cache_hit_rate

theorem benchmarks_passed_iff {b : Benchmarks} (h : b.Ran) (dataset_id : String) :
    (b.gate dataset_id).passed = true ↔ b.Fast := by
  unfold Benchmarks.gate
  rw [gate_passed_iff]
  unfold aggregate_to_gate_payload
  dsimp only
  rw [p95_s_le_iff h.api, p95_s_le_iff h.retrieval, p95_s_le_iff h.parse,
    p95_s_le_iff h.evaluation]
  norm_num
  exact ⟨fun ⟨h₁, h₂, h₃, h₄, h₅, h₆⟩ => ⟨h₁, h₂, h₃, h₄, h₅, h₆⟩,
    fun ⟨h₁, h₂, h₃, h₄, h₅, h₆⟩ => ⟨h₁, h₂, h₃, h₄, h₅, h₆⟩⟩

/-- The probe and the gate only count the calls that are within a limit. The
probe asks for 95 in a hundred, the gate for more than that or for all, so
calls that pass the gate pass the probe. -/
theorem gates_count_fast_calls (fixed : Nat → Rat → String) :
    (∀ latencies_ms status_codes summary, latencies_ms ≠ [] →
      summarize_http_probe latencies_ms status_codes = .ok summary →
      ∀ p95_limit_ms error_rate_limit,
        ((evaluate_latency_slo fixed summary p95_limit_ms error_rate_limit).passed = true ↔
          19 * latencies_ms.length ≤ 20 * within p95_limit_ms latencies_ms ∧
            failed_requests status_codes ≤ error_rate_limit * latencies_ms.length)) ∧
      ∀ b : Benchmarks, b.Ran → ∀ dataset_id,
        ((b.gate dataset_id).passed = true ↔ b.Fast) ∧
        ((b.gate dataset_id).passed = true → ∀ summary status_codes,
          summarize_http_probe (times b.api) status_codes = .ok summary →
          failed_requests status_codes = 0 →
            (evaluate_latency_slo fixed summary 1500 0).passed = true) := by
  refine ⟨fun latencies_ms status_codes summary hne h => probe_passed_iff fixed hne h,
    fun b hran dataset_id => ⟨benchmarks_passed_iff hran dataset_id, ?_⟩⟩
  intro hpassed summary status_codes hsummary hnone
  have hfast := ((benchmarks_passed_iff hran dataset_id).1 hpassed).api
  have htimes : times b.api ≠ [] := mt List.map_eq_nil_iff.1 hran.api
  rw [probe_passed_iff fixed htimes hsummary, hnone]
  constructor
  · rcases hfast with hlt | hall
    · exact le_of_lt hlt
    · omega
  · norm_num

/-- Nineteen fast calls of twenty are enough for the probe, but not for the
gate. -/
def one_slow_call : List Timed := ⟨true, 2000⟩ :: List.replicate 19 ⟨false, 1⟩

theorem one_slow_call_stops_the_gate :
    (Benchmarks.gate ⟨one_slow_call, one_slow_call, one_slow_call, one_slow_call, 0, 1⟩
      "bench_run").passed = false ∧
      ∃ summary, summarize_http_probe (times one_slow_call) (List.replicate 20 200) = .ok summary ∧
        (evaluate_latency_slo (fun _ _ => "") summary 1500 0).passed = true := by
  obtain ⟨hprobe, hgate⟩ := gates_count_fast_calls fun _ _ => ""
  constructor
  · rw [Bool.eq_false_iff]
    intro hpassed
    have hran : Benchmarks.Ran ⟨one_slow_call, one_slow_call, one_slow_call, one_slow_call, 0, 1⟩ :=
      ⟨by decide, by decide, by decide, by decide⟩
    have hapi := ((hgate _ hran "bench_run").1.1 hpassed).api
    revert hapi
    unfold EnoughWithin
    decide +kernel
  · have hsummary : ∃ summary, summarize_http_probe (times one_slow_call) (List.replicate 20 200) =
        .ok summary := ⟨_, rfl⟩
    obtain ⟨summary, hok⟩ := hsummary
    refine ⟨summary, hok, (hprobe _ _ summary (by decide) hok 1500 0).2 ⟨?_, ?_⟩⟩
    · decide +kernel
    · decide +kernel

end bid_evaluation.latency_laws
