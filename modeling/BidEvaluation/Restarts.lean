-- The store that a process comes up with. `_save_state` writes the snapshot as
-- JSON with sorted keys, and `_load_state` reads it back.
import BidEvaluation.SnapshotLaws
import BidEvaluation.Operations
import BidEvaluation.Lib.SortedDict
import BidEvaluation.Lib.Crash

open dict_lib crash_lib bid_evaluation.values bid_evaluation.core bid_evaluation.operations
open bid_evaluation.audit_laws (canon)
open bid_evaluation.snapshots (json_round_trip)

namespace bid_evaluation.restarts

/-! ## The records -/

def reload_payload : JobPayload → JobPayload
  | .resume payload =>
    .resume { payload with edited_scores := payload.edited_scores.map json_round_trip }
  | payload => payload

def reload_job (job : Job) : Job := { job with payload := reload_payload job.payload }

def reload_manifest (manifest : ParseManifest) : ParseManifest :=
  { manifest with content_source := manifest.content_source.map canon }

def reload_pack (pack : RulePack) : RulePack := { pack with rules := canon pack.rules }

def reload_citation (citation : Citation) : Citation :=
  { citation with
    page := canon citation.page
    bbox := canon citation.bbox
    quote := citation.quote.map canon }

def reload_result (result : CriteriaResult) : CriteriaResult :=
  { result with citations := result.citations.map reload_citation }

def reload_report (report : EvaluationReport) : EvaluationReport :=
  { report with
    criteria_results := report.criteria_results.map reload_result
    citations := report.citations.map reload_citation }

def reload_source (source : CitationSource) : CitationSource :=
  { source with
    page := canon source.page
    bbox := canon source.bbox
    heading_path := canon source.heading_path
    chunk_type := canon source.chunk_type
    content_source := canon source.content_source
    text := canon source.text
    context := canon source.context
    chunk_hash := canon source.chunk_hash }

def reload_checkpoint (checkpoint : Checkpoint) : Checkpoint :=
  { checkpoint with payload := json_round_trip checkpoint.payload }

def reload_log (log : AuditLog) : AuditLog := { log with details := json_round_trip log.details }

def reload_event (event : OutboxEvent) : OutboxEvent :=
  { event with payload := json_round_trip event.payload }

/-! ## The store -/

def reload (s : Store) : Store where
  jobs := s.jobs.reloaded reload_job fun _ => rfl
  documents := s.documents.reloaded id fun _ => rfl
  document_chunks := s.document_chunks.reloaded fun chunks => chunks.map json_round_trip
  rule_packs := s.rule_packs.reloaded reload_pack fun _ => rfl
  evaluation_reports := s.evaluation_reports.reloaded reload_report fun _ => rfl
  parse_manifests := s.parse_manifests.reloaded reload_manifest fun _ => rfl
  resume_tokens := s.resume_tokens.reloaded id
  audit_logs := s.audit_logs.map reload_log
  domain_events_outbox := s.domain_events_outbox.reloaded reload_event fun _ => rfl
  outbox_delivery_records := s.outbox_delivery_records.reloaded id
  workflow_checkpoints := s.workflow_checkpoints.reloaded fun rows => rows.map reload_checkpoint
  citation_sources := s.citation_sources.reloaded reload_source
  dlq_items := s.dlq_items.reloaded id fun _ => rfl
  legal_hold_objects := s.legal_hold_objects.reloaded id fun _ => rfl
  parser_retrieval_metrics := s.parser_retrieval_metrics
  confidence_scale := s.confidence_scale
  score_bias := s.score_bias

@[simp] theorem get?_jobs (s : Store) (id : String) :
    (reload s).jobs.get? id = (s.jobs.get? id).map reload_job :=
  Table.get?_reloaded reload_job (fun _ => rfl) _ _

@[simp] theorem get?_documents (s : Store) (id : String) :
    (reload s).documents.get? id = s.documents.get? id :=
  (Table.get?_reloaded _ (fun _ => rfl) _ _).trans (Option.map_id_apply)

@[simp] theorem get?_chunks (s : Store) (id : String) : (reload s).document_chunks.get? id =
    (s.document_chunks.get? id).map fun chunks => chunks.map json_round_trip :=
  Dict.get?_reloaded _ _ _

@[simp] theorem get?_manifests (s : Store) (id : String) :
    (reload s).parse_manifests.get? id = (s.parse_manifests.get? id).map reload_manifest :=
  Table.get?_reloaded reload_manifest (fun _ => rfl) _ _

@[simp] theorem get?_events (s : Store) (id : String) : (reload s).domain_events_outbox.get? id =
    (s.domain_events_outbox.get? id).map reload_event :=
  Table.get?_reloaded reload_event (fun _ => rfl) _ _

@[simp] theorem get?_items (s : Store) (id : String) :
    (reload s).dlq_items.get? id = s.dlq_items.get? id :=
  (Table.get?_reloaded _ (fun _ => rfl) _ _).trans (Option.map_id_apply)

/-- What a restart finds. Before the first save there is no row to load. -/
def snapshot (w : World) : Store := w.disk.getD Store.empty

/-- The process comes up again. `waiting` is what the LangGraph checkpointer
still has of the threads that wait. -/
def restart (waiting : String → Option EvaluationState) (w : World) : World :=
  { w with store := reload (snapshot w), interrupted := waiting }

end bid_evaluation.restarts
