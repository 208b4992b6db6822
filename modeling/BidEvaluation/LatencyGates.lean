-- The gates on latencies: the SLO probe of `ops/slo_probe.py`, the benchmarks of
-- `performance_benchmark.py` and the gate of `performance_gates.py`.
import BidEvaluation.Values
import BidEvaluation.Lib.Quantile
import Mathlib.Algebra.Order.Archimedean.Basic
import Mathlib.Data.Rat.Floor

open quantile bid_evaluation.values

namespace bid_evaluation.latency_gates

/-! ## The probe -/

def percentile (values : List Rat) (ratio : Rat) : Rat :=
  if values = [] then 0
  else if ratio ≤ 0 then values.min?.getD 0
  else if ratio ≥ 1 then values.max?.getD 0
  else
    let rank := max 1 ⌈ratio * values.length⌉₊
    (atRank values (rank - 1)).getD 0

structure ProbeSummary where
  count : Nat
  error_count : Nat
  error_rate : Rat
  p50_ms : Rat
  p95_ms : Rat
  max_ms : Rat
  avg_ms : Rat

def summarize_http_probe (latencies_ms : List Rat) (status_codes : List Int) :
    Except PyErr ProbeSummary :=
  if latencies_ms.length ≠ status_codes.length then
    .error (.raised "ValueError" "latencies_ms and status_codes must have the same length")
  else
    let count := latencies_ms.length
    if count = 0 then
      .ok ⟨0, 0, 0, 0, 0, 0, 0⟩
    else
      let error_count := status_codes.countP fun status => status ≥ 400
      .ok {
        count := count
        error_count := error_count
        error_rate := error_count / count
        p50_ms := percentile latencies_ms (1 / 2)
        p95_ms := percentile latencies_ms (19 / 20)
        max_ms := latencies_ms.max?.getD 0
        avg_ms := latencies_ms.sum / count }

structure SloGate where
  passed : Bool
  failed_reasons : List String
  p95_limit_ms : Rat
  error_rate_limit : Rat

/-- `fixed d x` is the text of a number with `d` decimals. -/
def evaluate_latency_slo (fixed : Nat → Rat → String) (summary : ProbeSummary)
    (p95_limit_ms error_rate_limit : Rat) : SloGate :=
  let late := summary.p95_ms > p95_limit_ms
  let failing := summary.error_rate > error_rate_limit
  let failures :=
    (if late then
      ["p95 exceeded: " ++ fixed 2 summary.p95_ms ++ "ms > " ++ fixed 2 p95_limit_ms ++ "ms"]
      else []) ++
    (if failing then
      ["error_rate exceeded: " ++ fixed 4 summary.error_rate ++ " > " ++ fixed 4 error_rate_limit]
      else [])
  { passed := failures.length = 0
    failed_reasons := failures
    p95_limit_ms := p95_limit_ms
    error_rate_limit := error_rate_limit }

/-! ## Benchmarks -/

structure BenchmarkResult where
  name : String
  latencies_ms : List Rat
  errors : Nat

namespace BenchmarkResult

/-- The three percentiles differ in the ratio only. -/
def percentile_ms (ratio : Rat) (result : BenchmarkResult) : Rat :=
  let n := result.latencies_ms.length
  if n = 0 then 0 else (atRank result.latencies_ms (min ⌊n * ratio⌋₊ (n - 1))).getD 0

def p50_ms : BenchmarkResult → Rat := percentile_ms (1 / 2)

def p95_ms : BenchmarkResult → Rat := percentile_ms (19 / 20)

def p99_ms : BenchmarkResult → Rat := percentile_ms (99 / 100)

def p95_s (result : BenchmarkResult) : Rat := result.p95_ms / 1000

end BenchmarkResult

/-- One call of the benchmarked function: whether it raised, and its time. -/
structure Timed where
  raised : Bool
  elapsed_ms : Rat

/-- A call that raised counts as an error, and its time counts too. -/
def time_call (result : BenchmarkResult) (call : Timed) : BenchmarkResult :=
  { result with
    errors := if call.raised then result.errors + 1 else result.errors
    latencies_ms := result.latencies_ms ++ [call.elapsed_ms] }

def run_benchmark (name : String) (calls : List Timed) : BenchmarkResult :=
  calls.foldl time_call ⟨name, [], 0⟩

/-! ## The performance gate -/

structure PerformanceMetrics where
  api_p95_s : Rat
  retrieval_p95_s : Rat
  parse_50p_p95_s : Rat
  evaluation_p95_s : Rat
  queue_dlq_rate : Rat
  cache_hit_rate : Rat

def aggregate_to_gate_payload (api_result retrieval_result parse_result evaluation_result :
    BenchmarkResult) (dlq_rate cache_hit_rate : Rat) : PerformanceMetrics where
  api_p95_s := api_result.p95_s
  retrieval_p95_s := retrieval_result.p95_s
  parse_50p_p95_s := parse_result.p95_s
  evaluation_p95_s := evaluation_result.p95_s
  queue_dlq_rate := dlq_rate
  cache_hit_rate := cache_hit_rate

/-- A check of a gate: what it is called when it fails. -/
def check (failed : Bool) (name : String) : List String := if failed then [name] else []

structure PerformanceGate where
  dataset_id : String
  passed : Bool
  failed_checks : List String
  values : PerformanceMetrics

def evaluate_performance_gate (dataset_id : String) (metrics : PerformanceMetrics) :
    PerformanceGate :=
  let failed_checks :=
    check (metrics.api_p95_s > 3 / 2) "API_P95_EXCEEDED" ++
    check (metrics.retrieval_p95_s > 4) "RETRIEVAL_P95_EXCEEDED" ++
    check (metrics.parse_50p_p95_s > 180) "PARSE_P95_EXCEEDED" ++
    check (metrics.evaluation_p95_s > 120) "EVALUATION_P95_EXCEEDED" ++
    check (metrics.queue_dlq_rate > 1 / 100) "QUEUE_DLQ_RATE_HIGH" ++
    check (metrics.cache_hit_rate < 7 / 10) "CACHE_HIT_RATE_LOW"
  { dataset_id := dataset_id
    passed := failed_checks.length = 0
    failed_checks := failed_checks
    values := metrics }

end bid_evaluation.latency_gates
