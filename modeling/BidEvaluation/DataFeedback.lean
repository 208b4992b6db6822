-- `run_data_feedback` of `store_release.py`: the samples that it captures from
-- the dead letter queue and the audit log, and the version of the data set.
import BidEvaluation.Lib.DecimalDigits
import BidEvaluation.Lib.Zoom
import BidEvaluation.RetrievalQuery
import BidEvaluation.StoreOps
import Mathlib.Data.List.Sort

open dict_lib stepwise zoom decimal_digits bid_evaluation.values bid_evaluation.core bid_evaluation.store_ops
open bid_evaluation.retrieval (is_str)

namespace bid_evaluation.data_feedback

/-! ## The samples -/

structure CounterexampleSample where
  sample_id : String
  release_id : String
  tenant_id : String
  source : String
  job_id : String
  error_class : String
  error_code : String
  created_at : Int

structure GoldCandidateSample where
  sample_id : String
  release_id : String
  tenant_id : String
  source : String
  evaluation_id : PyVal
  decision : PyVal
  created_at : Int

/-- The part of the store that only `run_data_feedback` writes. -/
structure Samples where
  counterexample_samples : Dict String CounterexampleSample
  gold_candidate_samples : Dict String GoldCandidateSample
  dataset_version : String

structure System where
  world : World
  samples : Samples

def System.start (w : World) : System := ⟨w, ⟨Dict.empty, Dict.empty, "v1.0.0"⟩⟩

abbrev FeedbackAct := Prog System PyErr

/-- An operation that does not see the samples. -/
def on_world (m : Act α) : FeedbackAct α := zoomed System.world (fun b w => { b with world := w }) m

/-! ## The version -/

/-- The groups of `v(\d+)\.(\d+)\.(\d+)`, if the whole text matches. -/
def version_match (version : String) : Option (Nat × Nat × Nat) :=
  match version.toList with
  | 'v' :: rest =>
    match rest.splitOn '.' with
    | [major, minor, patch] => do
      let major ← numberValue major
      let minor ← numberValue minor
      let patch ← numberValue patch
      pure (major, minor, patch)
    | _ => none
  | _ => none

def version_text (v : Nat × Nat × Nat) : String :=
  "v" ++ toString v.1 ++ "." ++ toString v.2.1 ++ "." ++ toString v.2.2

def bumped (bump : String) (v : Nat × Nat × Nat) : Nat × Nat × Nat :=
  let (major, minor, patch) := v
  if bump = "major" then (major + 1, 0, 0)
  else if bump = "minor" then (major, minor + 1, 0)
  else (major, minor, patch + 1)

def bump_dataset_version (version bump : String) : String :=
  match version_match version with
  | none => "v1.0.0"
  | some v => version_text (bumped bump v)

/-! ## A run -/

structure FeedbackArgs where
  release_id : String
  dlq_ids : List String
  version_bump : String
  include_manual_override_candidates : Bool
  tenant_id : String
  trace_id : String

structure FeedbackResult where
  release_id : String
  counterexample_added : Nat
  gold_candidates_added : Nat
  dataset_version_before : String
  dataset_version_after : String

/-- The items of the tenant, sorted by their ids. -/
def list_dlq_items (s : Store) (tenant_id : String) : List DlqItem :=
  (s.dlq_items.values.filter (fun x => x.tenant_id = tenant_id)).insertionSort
    (fun x y => x.dlq_id ≤ y.dlq_id)

def candidate_dlq_ids (s : Store) (args : FeedbackArgs) : List String :=
  if args.dlq_ids = [] then (list_dlq_items s args.tenant_id).map DlqItem.dlq_id else args.dlq_ids

def capture_dlq_item (env : Env) (args : FeedbackArgs) (added : Nat) (dlq_id : String) :
    FeedbackAct Nat := do
  let b ← read
  match get_dlq_item b.world.store dlq_id args.tenant_id with
  | none => pure added
  | some item =>
    match b.samples.counterexample_samples.get? dlq_id with
    | some _ => pure added
    | none => do
      let created_at ← on_world (utcnow env)
      let sample : CounterexampleSample := {
        sample_id := dlq_id
        release_id := args.release_id
        tenant_id := args.tenant_id
        source := "dlq"
        job_id := item.job_id
        error_class := item.error_class
        error_code := item.error_code
        created_at := created_at }
      write (fun b => { b with samples := { b.samples with
        counterexample_samples := b.samples.counterexample_samples.set dlq_id sample } })
      pure (added + 1)

/-- An entry of the tenant in which a reviewer rejected or edited a score.
The decision of such an entry is a text. -/
def is_override (tenant_id : String) (log : AuditLog) : Bool :=
  let decision := PyDict.get log.details "decision"
  log.tenant_id = tenant_id && log.action = "resume_submitted" &&
    (is_str decision "reject" || is_str decision "edit_scores")

def capture_override (env : Env) (args : FeedbackArgs) (added : Nat) (log : AuditLog) :
    FeedbackAct Nat := do
  if is_override args.tenant_id log then do
    let b ← read
    match b.samples.gold_candidate_samples.get? log.audit_id with
    | some _ => pure added
    | none => do
      let created_at ← on_world (utcnow env)
      let sample : GoldCandidateSample := {
        sample_id := log.audit_id
        release_id := args.release_id
        tenant_id := args.tenant_id
        source := "manual_override"
        evaluation_id := PyDict.get log.details "evaluation_id"
        decision := PyDict.get log.details "decision"
        created_at := created_at }
      write (fun b => { b with samples := { b.samples with
        gold_candidate_samples := b.samples.gold_candidate_samples.set log.audit_id sample } })
      pure (added + 1)
  else pure added

def capture_overrides (env : Env) (args : FeedbackArgs) : FeedbackAct Nat := do
  if args.include_manual_override_candidates then do
    let b ← read
    b.world.store.audit_logs.foldlM (capture_override env args) 0
  else pure 0

def run_data_feedback (env : Env) (args : FeedbackArgs) : FeedbackAct FeedbackResult := do
  let b ← read
  let counterexample_added ←
    (candidate_dlq_ids b.world.store args).foldlM (capture_dlq_item env args) 0
  let gold_candidates_added ← capture_overrides env args
  let b ← read
  let before := b.samples.dataset_version
  let after := bump_dataset_version before args.version_bump
  write (fun b => { b with samples := { b.samples with dataset_version := after } })
  on_world (append_audit_log env args.tenant_id "data_feedback_run"
    [("release_id", .str args.release_id), ("counterexample_added", .int counterexample_added),
      ("gold_candidates_added", .int gold_candidates_added), ("dataset_version_before", .str before),
      ("dataset_version_after", .str after), ("trace_id", .str args.trace_id)])
  on_world (save_state env)
  pure ⟨args.release_id, counterexample_added, gold_candidates_added, before, after⟩

end bid_evaluation.data_feedback
