-- The state of the service and what surrounds it. `Store` has the
-- collections of `InMemoryStore`, `Env` has what the code asks the outside
-- for, and `World` is the store together with the snapshot on disk.
import BidEvaluation.Values
import BidEvaluation.Lib.Stepwise

open dict_lib stepwise bid_evaluation.values

namespace bid_evaluation.core

/-! ## Jobs -/

/-- The status words of a job. An internal request may name any other word. -/
inductive JobStatus where
  | queued
  | running
  | retrying
  | succeeded
  | needs_manual_decision
  | dlq_pending
  | dlq_recorded
  | failed
  | other (word : String)
deriving DecidableEq

def JobStatus.word : JobStatus → String
  | .queued => "queued"
  | .running => "running"
  | .retrying => "retrying"
  | .succeeded => "succeeded"
  | .needs_manual_decision => "needs_manual_decision"
  | .dlq_pending => "dlq_pending"
  | .dlq_recorded => "dlq_recorded"
  | .failed => "failed"
  | .other word => word

inductive JobType where
  | parse
  | evaluation
  | resume
  | requeue
  | replay_verification
deriving DecidableEq

def JobType.word : JobType → String
  | .parse => "parse"
  | .evaluation => "evaluation"
  | .resume => "resume"
  | .requeue => "requeue"
  | .replay_verification => "replay_verification"

structure ErrorInfo where
  code : String
  message : String
  retryable : Bool
  error_class : String
  occurred_at : Option Int
deriving DecidableEq

structure EvaluationScope where
  include_doc_types : List String
  force_hitl : Bool
deriving DecidableEq

structure EvaluationPayload where
  tenant_id : String
  trace_id : String
  project_id : String
  supplier_id : String
  rule_pack_version : String
  evaluation_scope : EvaluationScope
deriving DecidableEq

structure ResumePayload where
  tenant_id : String
  trace_id : String
  decision : String
  comment : String
  reviewer_id : String
  edited_scores : List PyDict

inductive JobPayload where
  | parse (document_id trace_id tenant_id : String)
  | evaluation (payload : EvaluationPayload)
  | resume (payload : ResumePayload)
  | requeue (source_dlq_id : String)
  | replay (release_id trigger_gate : String)

structure Job where
  job_id : String
  job_type : JobType
  status : JobStatus
  retry_count : Nat
  thread_id : String
  tenant_id : String
  trace_id : String
  resource_type : String
  resource_id : String
  payload : JobPayload
  last_error : Option ErrorInfo
  errors : List ErrorInfo
  error_code : Option String
  next_retry_at : Option Int

/-- `ALLOWED_TRANSITIONS`, with no transition out of a word it does not
have. -/
def ALLOWED_TRANSITIONS : JobStatus → List JobStatus
  | .queued => [.running]
  | .running => [.retrying, .succeeded, .needs_manual_decision, .dlq_pending]
  | .retrying => [.running, .dlq_pending]
  | .needs_manual_decision => [.running, .succeeded]
  | .dlq_pending => [.dlq_recorded]
  | .dlq_recorded => [.failed]
  | .succeeded => []
  | .failed => []
  | .other _ => []

/-! ## Documents -/

structure Document where
  document_id : String
  tenant_id : String
  project_id : String
  supplier_id : String
  doc_type : String
  filename : String
  file_sha256 : String
  file_size : Nat
  status : String
  storage_uri : Option String
deriving DecidableEq

structure ParseManifest where
  run_id : String
  job_id : String
  document_id : String
  tenant_id : String
  parser_selected : String
  parser_version : String
  fallback_chain : List String
  started_at : Option Int
  ended_at : Option Int
  status : String
  error_code : Option String
  content_source : Option PyVal
  chunk_count : Option Nat

/-! ## Evaluations -/

structure RulePack where
  rule_pack_version : String
  tenant_id : String
  rules : PyVal

structure Citation where
  chunk_id : String
  page : PyVal
  bbox : PyVal
  quote : Option PyVal

structure CitationSource where
  chunk_id : String
  document_id : String
  tenant_id : String
  project_id : String
  supplier_id : String
  doc_type : String
  page : PyVal
  bbox : PyVal
  heading_path : PyVal
  chunk_type : PyVal
  content_source : PyVal
  text : PyVal
  context : PyVal
  score_raw : Rat
  chunk_hash : PyVal

/-- One piece of evidence that retrieval returned for a criterion. -/
structure Evidence where
  chunk_id : String
  page : PyVal
  bbox : PyVal
  text : String
  score_raw : Rat

structure CriteriaResult where
  criteria_id : String
  criteria_name : String
  requirement_text : Option String
  response_text : Option String
  score : Rat
  max_score : Rat
  hard_pass : Bool
  reason : String
  citations : List Citation
  confidence : Rat
  human_edited : Bool

/-- The `interrupt` payload of a report that waits for a reviewer. -/
structure Interrupt where
  evaluation_id : String
  reasons : List String
  suggested_actions : List String
  resume_token : String
deriving DecidableEq

structure EvaluationReport where
  evaluation_id : String
  supplier_id : String
  total_score : Rat
  confidence : Rat
  citation_coverage : Rat
  score_deviation_pct : Rat
  risk_level : String
  criteria_results : List CriteriaResult
  citations : List Citation
  needs_human_review : Bool
  trace_id : String
  tenant_id : String
  thread_id : String
  interrupt : Option Interrupt
  unsupported_claims : List String
  redline_conflict : Bool
  report_uri : Option String

structure ResumeToken where
  resume_token : String
  tenant_id : String
  used : Bool
  reasons : List String
  issued_at : Int
  used_at : Option Int
deriving DecidableEq

/-- The state that the evaluation nodes pass on. A field that no node has
set yet has the default that its readers use. -/
structure EvaluationState where
  tenant_id : String
  project_id : String
  evaluation_id : String
  supplier_id : String
  trace_id : String
  thread_id : String
  job_id : String
  payload : EvaluationPayload
  rule_pack_version : String
  include_doc_types : List String
  force_hitl : Bool
  rules : PyVal
  criteria_defs : List PyVal
  criteria_weights : List (String × Rat)
  hard_constraint_pass : Bool
  include_doc_types_normalized : List String
  criteria_evidence : List (String × List Evidence)
  citations_all_ids : List String
  redline_conflict : Bool
  criteria_results : List CriteriaResult
  unsupported_claims : List String
  total_score : Rat
  confidence : Rat
  citation_coverage : Rat
  score_deviation_pct : Rat
  needs_human_review : Bool
  hitl_reasons : List String
  interrupt_payload : Option Interrupt
  report : Option EvaluationReport
  edited_scores : List (String × Rat)
  cost_exceeded : Bool
  cost_total_tokens : Int

/-! ## Records of the workflow and of operations -/

structure Checkpoint where
  checkpoint_id : String
  thread_id : String
  job_id : String
  seq : Nat
  node : String
  status : String
  payload : PyDict
  tenant_id : String
  created_at : Int

structure AuditLog where
  audit_id : String
  tenant_id : String
  action : String
  details : PyDict
  occurred_at : Int
  prev_hash : String
  audit_hash : String

structure OutboxEvent where
  event_id : String
  tenant_id : String
  event_type : String
  aggregate_type : String
  aggregate_id : String
  payload : PyDict
  status : String
  published_at : Option Int
  created_at : Int

structure OutboxDelivery where
  delivery_id : String
  tenant_id : String
  event_id : String
  consumer_name : String
  message_id : String
  created_at : Int
deriving DecidableEq

structure DlqItem where
  dlq_id : String
  job_id : String
  tenant_id : String
  error_class : String
  error_code : String
  status : String
  discard_reason : Option String
  reviewer_id : Option String
  reviewer_id_2 : Option String
deriving DecidableEq

structure LegalHold where
  hold_id : String
  tenant_id : String
  object_type : String
  object_id : String
  storage_uri : Option String
  status : String
deriving DecidableEq

/-- The counters of `parser_retrieval_metrics` that parse jobs move. -/
structure ParserMetrics where
  parse_runs_total : Nat
  parse_fallback_used_total : Nat
  parse_index_write_total : Nat
  parse_index_fail_total : Nat
deriving DecidableEq

/-! ## The store -/

structure Store where
  jobs : Table Job.job_id
  documents : Table Document.document_id
  document_chunks : Dict String (List PyDict)
  rule_packs : Table RulePack.rule_pack_version
  evaluation_reports : Table EvaluationReport.evaluation_id
  parse_manifests : Table ParseManifest.job_id
  resume_tokens : Dict String ResumeToken
  audit_logs : List AuditLog
  domain_events_outbox : Table OutboxEvent.event_id
  outbox_delivery_records : Dict String OutboxDelivery
  workflow_checkpoints : Dict String (List Checkpoint)
  citation_sources : Dict String CitationSource
  dlq_items : Table DlqItem.dlq_id
  legal_hold_objects : Table LegalHold.hold_id
  parser_retrieval_metrics : ParserMetrics
  confidence_scale : Rat
  score_bias : Rat

def Store.empty : Store where
  jobs := Table.empty
  documents := Table.empty
  document_chunks := Dict.empty
  rule_packs := Table.empty
  evaluation_reports := Table.empty
  parse_manifests := Table.empty
  resume_tokens := Dict.empty
  audit_logs := []
  domain_events_outbox := Table.empty
  outbox_delivery_records := Dict.empty
  workflow_checkpoints := Dict.empty
  citation_sources := Dict.empty
  dlq_items := Table.empty
  legal_hold_objects := Table.empty
  parser_retrieval_metrics := ⟨0, 0, 0, 0⟩
  confidence_scale := 1
  score_bias := 0

/-- The nodes of the evaluation graph, in edge order. -/
inductive Node where
  | load_context
  | retrieve_evidence
  | evaluate_rules
  | score_with_llm
  | quality_gate
  | finalize_report
  | persist_result
deriving DecidableEq

def Node.word : Node → String
  | .load_context => "load_context"
  | .retrieve_evidence => "retrieve_evidence"
  | .evaluate_rules => "evaluate_rules"
  | .score_with_llm => "score_with_llm"
  | .quality_gate => "quality_gate"
  | .finalize_report => "finalize_report"
  | .persist_result => "persist_result"

/-- A write that the index service got for a document, and if it failed. -/
structure IndexWrite where
  document_id : String
  chunks : List PyDict
  failed : Bool

/-- The store in memory, the last snapshot that `_save_state` wrote, how
much was drawn from the outside, the thread states in the LangGraph
checkpointer that wait at the interrupt, and the writes to the index. -/
structure World where
  store : Store
  disk : Option Store
  draws : Nat
  interrupted : String → Option EvaluationState
  index_log : List IndexWrite

def World.start : World := ⟨Store.empty, none, 0, fun _ => none, []⟩

end bid_evaluation.core
