-- `store_ops.py`: the outbox, its delivery records and the dead letter
-- queue. Each operation that the persistent stores override saves at its end.
import BidEvaluation.StoreCore

open dict_lib stepwise bid_evaluation.values bid_evaluation.core

namespace bid_evaluation.store_ops

/-! ## The outbox -/

def append_outbox_event (env : Env) (tenant_id event_type aggregate_type aggregate_id : String)
    (payload : PyDict) : Act OutboxEvent :=
  saving env do
    let hex ← uuid4_hex12 env
    let created_at ← utcnow env
    let event : OutboxEvent := {
      event_id := "evt_" ++ hex
      tenant_id := tenant_id
      event_type := event_type
      aggregate_type := aggregate_type
      aggregate_id := aggregate_id
      payload := payload
      status := "pending"
      published_at := none
      created_at := created_at }
    update (fun s => { s with
      domain_events_outbox := s.domain_events_outbox.put event })
    pure event

/-- `sorted` is stable, and the order before it is the order of insertion. -/
def list_outbox_events (s : Store) (tenant_id : String) (status : Option String) (limit : Nat) :
    List OutboxEvent :=
  let items := s.domain_events_outbox.values.filter (fun x => x.tenant_id = tenant_id)
  let items := match status with
    | some word => if word = "" then items else items.filter (fun x => x.status = word)
    | none => items
  (items.mergeSort (fun x y => x.created_at ≤ y.created_at)).take (max 1 (min limit 1000))

def outbox_event_not_found : Act α :=
  raise_api "OUTBOX_EVENT_NOT_FOUND" "outbox event not found" "validation" false 404

def mark_outbox_event_published (env : Env) (tenant_id event_id : String) : Act OutboxEvent :=
  saving env do
    let w ← read
    match w.store.domain_events_outbox.get? event_id with
    | none => outbox_event_not_found
    | some event => do
      assert_tenant_scope event.tenant_id tenant_id
      let published_at ← utcnow env
      let event := { event with status := "published", published_at := some published_at }
      update (fun s => { s with
        domain_events_outbox := s.domain_events_outbox.put event })
      pure event

def outbox_delivery_key (tenant_id event_id consumer_name : String) : String :=
  tenant_id ++ ":" ++ event_id ++ ":" ++ consumer_name

def get_outbox_delivery (s : Store) (tenant_id event_id consumer_name : String) :
    Option OutboxDelivery :=
  s.outbox_delivery_records.get? (outbox_delivery_key tenant_id event_id consumer_name)

def mark_outbox_delivered (env : Env) (tenant_id event_id consumer_name message_id : String) :
    Act OutboxDelivery :=
  saving env do
    let w ← read
    match w.store.domain_events_outbox.get? event_id with
    | none => outbox_event_not_found
    | some event => do
      assert_tenant_scope event.tenant_id tenant_id
      let key := outbox_delivery_key tenant_id event_id consumer_name
      match w.store.outbox_delivery_records.get? key with
      | some existing => pure existing
      | none => do
        let hex ← uuid4_hex12 env
        let created_at ← utcnow env
        let record : OutboxDelivery :=
          ⟨"odl_" ++ hex, tenant_id, event_id, consumer_name, message_id, created_at⟩
        update (fun s => { s with
          outbox_delivery_records := s.outbox_delivery_records.set key record })
        pure record

/-- The event that a creator of a job appends. -/
def announce_job (env : Env) (tenant_id job_id job_type resource_type resource_id : String) :
    Act OutboxEvent :=
  append_outbox_event env tenant_id "job.created" "job" job_id
    [("job_id", .str job_id), ("job_type", .str job_type),
      ("resource_type", .str resource_type), ("resource_id", .str resource_id)]

/-! ## The dead letter queue -/

def seed_dlq_item (env : Env) (job_id error_class error_code tenant_id : String) : Act DlqItem :=
  saving env do
    let hex ← uuid4_hex12 env
    persist_dlq_item
      ⟨"dlq_" ++ hex, job_id, tenant_id, error_class, error_code, "open", none, none, none⟩

/-- An item of another tenant is not found. -/
def get_dlq_item (s : Store) (dlq_id tenant_id : String) : Option DlqItem :=
  (s.dlq_items.get? dlq_id).filter (fun item => item.tenant_id = tenant_id)

def dlq_item_not_found : Act α :=
  raise_api "DLQ_ITEM_NOT_FOUND" "dlq item not found" "validation" false 404

/-- A requeue makes a new job. It appends no event to the outbox. -/
def requeue_dlq_item (env : Env) (dlq_id trace_id tenant_id : String) : Act String :=
  saving env do
    let w ← read
    match get_dlq_item w.store dlq_id tenant_id with
    | none => dlq_item_not_found
    | some item =>
      if item.status ≠ "open" then
        raise_api "DLQ_REQUEUE_CONFLICT" "dlq item is not open" "business_rule" false 409
      else do
        let hex ← uuid4_hex12 env
        let thread_id ← new_thread_id env "requeue"
        let job ← persist_job {
          job_id := "job_" ++ hex
          job_type := .requeue
          status := .queued
          retry_count := 0
          thread_id := thread_id
          tenant_id := tenant_id
          trace_id := trace_id
          resource_type := "job"
          resource_id := item.job_id
          payload := .requeue dlq_id
          last_error := none
          errors := []
          error_code := none
          next_retry_at := none }
        let _ ← persist_dlq_item { item with status := "requeued" }
        append_audit_log env tenant_id "dlq_requeue_submitted"
          [("dlq_id", .str dlq_id), ("source_job_id", .str item.job_id),
            ("new_job_id", .str job.job_id), ("trace_id", .str trace_id)]
        pure job.job_id

def approval_required (message : String) : Act α :=
  raise_api "APPROVAL_REQUIRED" message "business_rule" false 400

def discard_dlq_item (env : Env)
    (dlq_id reason reviewer_id reviewer_id_2 tenant_id trace_id : String) : Act Unit :=
  saving env do
    let w ← read
    match get_dlq_item w.store dlq_id tenant_id with
    | none => dlq_item_not_found
    | some item =>
      let reviewer_a := strip reviewer_id
      let reviewer_b := strip reviewer_id_2
      if strip reason = "" ∨ reviewer_a = "" ∨ reviewer_b = "" then
        approval_required "discard requires reason and dual reviewers"
      else if reviewer_a = reviewer_b then
        approval_required "dual reviewers must be different identities"
      else do
        let _ ← persist_dlq_item { item with
          status := "discarded"
          discard_reason := some reason
          reviewer_id := some reviewer_a
          reviewer_id_2 := some reviewer_b }
        append_audit_log env tenant_id "dlq_discard_submitted"
          [("dlq_id", .str dlq_id), ("reviewer_id", .str reviewer_a),
            ("reviewer_id_2", .str reviewer_b),
            ("approval_reviewers", .list [.str reviewer_a, .str reviewer_b]),
            ("reason", .str reason), ("trace_id", .str trace_id)]

end bid_evaluation.store_ops
