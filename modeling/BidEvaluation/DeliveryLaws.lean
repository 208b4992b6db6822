-- The laws of delivery. No job that was announced is lost on its way from the
-- outbox to its run, in whatever order operations, relays, workers and drains
-- follow each other.
import BidEvaluation.DeliveryRounds
import BidEvaluation.WorkerRuntime

open dict_lib stepwise bid_evaluation.values bid_evaluation.core bid_evaluation.store_ops
  bid_evaluation.store_admin bid_evaluation.job_run bid_evaluation.operations
  bid_evaluation.job_steps bid_evaluation.job_laws bid_evaluation.op_steps
  bid_evaluation.queue_backend bid_evaluation.service bid_evaluation.outbox_relay
  bid_evaluation.worker_runtime bid_evaluation.endings
open bid_evaluation.worker_laws (ticked)

namespace bid_evaluation.delivery

variable {env : Env} {s t : Service} {msg : QueueMessage}

/-! ## Names without a colon -/

/-- A name without the separator of the keys. -/
def Plain (name : String) : Prop := ':' ∉ name.toList

instance (name : String) : Decidable (Plain name) := inferInstanceAs (Decidable (':' ∉ _))

theorem plain_append {a b : String} (ha : Plain a) (hb : Plain b) : Plain (a ++ b) := by
  unfold Plain at *
  simp [ha, hb]

/-- What stands before the first colon of two equal texts is the same. -/
theorem first_name_eq {a a' rest rest' : String} (ha : Plain a) (ha' : Plain a')
    (h : a ++ ":" ++ rest = a' ++ ":" ++ rest') : a = a' ∧ rest = rest' := by
  have hfirst : ∀ a rest : String, Plain a →
      (a ++ ":" ++ rest).toList.takeWhile (· ≠ ':') = a.toList := by
    intro a rest ha
    have hall : ∀ c ∈ a.toList, decide (c ≠ ':') = true := by
      intro c hc
      rw [decide_eq_true_eq]
      rintro rfl
      exact ha hc
    have hsplit : (a ++ ":" ++ rest).toList = a.toList ++ ':' :: rest.toList := by simp
    rw [hsplit, List.takeWhile_append_of_pos hall]
    simp
  have heq : a = a' := by
    apply String.toList_injective
    rw [← hfirst a rest ha, h, hfirst a' rest' ha']
  subst heq
  exact ⟨rfl, String.append_right_inj _ |>.1 h⟩

/-- A key of plain names belongs to no other tenant. -/
theorem tenant_of_key {t q t' q' : String} (ht : Plain t) (hq : Plain q)
    (h : queue_key t' q' = queue_key t q) : t' = t := by
  rw [key_laws.queue_key_eq, key_laws.queue_key_eq, key_laws.key_of_eq_iff] at h
  have hcount := congrArg (fun name => name.toList.count ':') h
  have ht₀ : t.toList.count ':' = 0 := List.count_eq_zero.2 ht
  have hq₀ : q.toList.count ':' = 0 := List.count_eq_zero.2 hq
  have htwo : (":queue:" : String).toList.count ':' = 2 := by decide
  simp only [String.toList_append, List.count_append, ht₀, hq₀, htwo] at hcount
  have ht' : Plain t' := List.count_eq_zero.1 (by omega)
  have hsplit : ∀ t q : String, t ++ ":queue:" ++ q = t ++ ":" ++ ("queue:" ++ q) := by
    intro t q
    apply String.toList_injective
    simp
  rw [hsplit, hsplit] at h
  exact (first_name_eq ht' ht h).1

/-- Deliveries of plain tenants have one key for each event and consumer. -/
theorem event_of_delivery_key {t t' id id' consumer consumer' : String} (ht : Plain t)
    (ht' : Plain t') (hid : Plain id) (hid' : Plain id')
    (h : outbox_delivery_key t id consumer = outbox_delivery_key t' id' consumer') : id = id' := by
  unfold outbox_delivery_key at h
  have hsplit : ∀ t id consumer : String,
      t ++ ":" ++ id ++ ":" ++ consumer = t ++ ":" ++ (id ++ ":" ++ consumer) := by
    intro t id consumer
    simp only [String.append_assoc]
  rw [hsplit, hsplit] at h
  exact (first_name_eq hid hid' (first_name_eq ht ht' h).2).1

/-! ## The invariant -/

/-- A message that waits in the queue for the run of this job. -/
def Waits (env : Env) (q : InMemoryQueueBackend) (job_id tenant_id : String) : Prop :=
  ∃ key, ∃ msg ∈ q.deque key, job_id_of env msg = job_id ∧ msg.tenant_id = tenant_id

/-- The clock has passed the time of the message, or its job has left the
queue. -/
def InTime (env : Env) (w : World) (msg : QueueMessage) : Prop :=
  (∃ n < w.draws, msg.available_at = some (env.clock n)) ∨ Left w (job_id_of env msg)

/-- A message that waits where a relay or a nack has put it. -/
structure InPlace (env : Env) (w : World) (key : String) (msg : QueueMessage) : Prop where
  key : key = queue_key msg.tenant_id msg.queue_name
  tenant : Plain msg.tenant_id
  queue : Plain msg.queue_name
  stands : StandsFor env w msg
  due : InTime env w msg

/-- Where the announcement of a job is, at any time: in the outbox, in the
queue, or done with. -/
structure Custody (env : Env) (s : Service) : Prop where
  named : Named env s.world
  announced : ∀ id event, s.world.store.domain_events_outbox.get? id = some event →
    Announcement s.world event
  recorded : ∀ key, (s.world.store.outbox_delivery_records.get? key).isSome →
    ∃ id event consumer, s.world.store.domain_events_outbox.get? id = some event ∧
      event.status ≠ "pending" ∧ Plain event.tenant_id ∧
      key = outbox_delivery_key event.tenant_id id consumer
  placed : ∀ key msg, msg ∈ s.queue.deque key → InPlace env s.world key msg
  carried : ∀ id event, s.world.store.domain_events_outbox.get? id = some event →
    event.status = "pending" ∨ Waits env s.queue event.aggregate_id event.tenant_id ∨
      Left s.world event.aggregate_id

theorem StandsFor.flow {w w' : World} (h : StandsFor env w msg) (hf : Flow w w') :
    StandsFor env w' msg := by
  obtain ⟨hne, job, hjob, htenant⟩ := h
  obtain ⟨job', hjob', hsame, -⟩ := hf.jobs _ job hjob
  exact ⟨hne, job', hjob', hsame.trans htenant⟩

theorem InTime.flow {w w' : World} (h : InTime env w msg) (hf : Flow w w') :
    InTime env w' msg := by
  rcases h with ⟨n, hn, hdue⟩ | hleft
  · exact .inl ⟨n, Nat.lt_of_lt_of_le hn hf.draws, hdue⟩
  · exact .inr (hf.left hleft)

theorem InPlace.flow {w w' : World} {key : String} (h : InPlace env w key msg) (hf : Flow w w') :
    InPlace env w' key msg :=
  ⟨h.key, h.tenant, h.queue, h.stands.flow hf, h.due.flow hf⟩

/-- The deliveries that are recorded stay those of events that were sent. -/
theorem Custody.recorded_flow {w : World} (h : Custody env s) (hf : Flow s.world w) (key : String)
    (hkey : (w.store.outbox_delivery_records.get? key).isSome) :
    ∃ id event consumer, w.store.domain_events_outbox.get? id = some event ∧
      event.status ≠ "pending" ∧ Plain event.tenant_id ∧
      key = outbox_delivery_key event.tenant_id id consumer := by
  rw [hf.records] at hkey
  obtain ⟨id, event, consumer, hevent, hrest⟩ := h.recorded key hkey
  exact ⟨id, event, consumer, hf.kept id event hevent, hrest⟩

/-- A program of the store keeps the invariant. -/
theorem Custody.flow {w : World} (h : Custody env s) (hf : Flow s.world w) (hn : Named env w) :
    Custody env { s with world := w } := by
  refine ⟨hn, ?_, h.recorded_flow hf, fun key m hm => (h.placed key m hm).flow hf, ?_⟩
  · intro id event hevent
    rcases hf.posted id event hevent with hold | ⟨-, -, hnew⟩
    · exact hf.announcement (h.announced id event hold)
    · exact hnew
  · intro id event hevent
    rcases hf.posted id event hevent with hold | ⟨-, hpending, -⟩
    · rcases h.carried id event hold with hpending | hwaits | hleft
      · exact .inl hpending
      · exact .inr (.inl hwaits)
      · exact .inr (.inr (hf.left hleft))
    · exact .inl hpending

/-! ## A round of the worker or of the drain route -/

theorem Custody.of_tick (h : Custody env s) {q : InMemoryQueueBackend}
    (hsame : ∀ key m, m ∈ q.deque key ↔ m ∈ s.queue.deque key) :
    Custody env { ticked s with queue := q } := by
  have hticked := h.flow (flow_tick s.world) (named_tick h.named)
  refine ⟨hticked.named, hticked.announced, hticked.recorded, ?_, ?_⟩
  · intro key m hm
    exact hticked.placed key m ((hsame key m).1 hm)
  · intro id event hevent
    rcases hticked.carried id event hevent with hpending | ⟨key, m, hm, hrest⟩ | hleft
    · exact .inl hpending
    · exact .inr (.inl ⟨key, m, (hsame key m).2 hm, hrest⟩)
    · exact .inr (.inr hleft)

theorem Custody.idle {tenant_id queue_name : String} (h : Custody env s)
    (hidle : Idle env tenant_id queue_name s t) : Custody env t := by
  have hticked := h.of_tick hidle.same
  have hworld := hidle.world
  cases t
  cases hworld
  exact hticked

/-- The tenant of a call is the tenant of the message that it takes. -/
theorem Custody.own {tenant_id queue_name : String} (h : Custody env s)
    (htaken : Taken tenant_id queue_name msg s t) : tenant_id = msg.tenant_id := by
  have hplace := h.placed _ _ htaken.here
  exact tenant_of_key hplace.tenant hplace.queue hplace.key

/-- A message is taken, its job runs, and the message is settled: only that
job has lost its message, and it needs none any more. -/
theorem Custody.round {tenant_id queue_name : String} {r : Service} (h : Custody env s)
    (htaken : Taken tenant_id queue_name msg s t) (hhandled : Handled env msg t r) :
    Custody env r := by
  have hworld : t.world = { s.world with draws := s.world.draws + 1 } := htaken.world
  have hticked : Flow s.world t.world := hworld ▸ flow_tick s.world
  have hnamed : Named env t.world := hworld ▸ named_tick h.named
  have hflow : Flow s.world r.world := hticked.trans hhandled.settled.flow
  have hplace := h.placed _ _ htaken.here
  have hleft : Left r.world (job_id_of env msg) := hhandled.left (hplace.stands.flow hticked)
  have hnext := h.flow hflow (hhandled.settled.named hnamed)
  refine ⟨hnext.named, hnext.announced, hnext.recorded, ?_, ?_⟩
  · intro key m hm
    rcases hhandled.settled.back key m hm with hold | ⟨hkey, htenant, hqueue, hpayload⟩
    · exact (h.placed key m (htaken.old key m hold)).flow hflow
    · have hjob : job_id_of env m = job_id_of env msg := by
        unfold job_id_of
        rw [hpayload]
      refine ⟨hkey, htenant ▸ hplace.tenant, hqueue ▸ hplace.queue, ?_, .inr (hjob ▸ hleft)⟩
      have hstands := hplace.stands.flow hflow
      unfold StandsFor at hstands ⊢
      rw [hjob, htenant]
      exact hstands
  · intro id event hevent
    rcases hnext.carried id event hevent with hpending | ⟨key, m, hm, hcarries⟩ | hgone
    · exact .inl hpending
    · rcases htaken.kept key m hm with hstill | rfl
      · exact .inr (.inl ⟨key, m, hhandled.settled.kept key m hstill, hcarries⟩)
      · exact .inr (.inr (hcarries.1 ▸ hleft))
    · exact .inr (.inr hgone)

/-! ## A relay -/

/-- A name that was drawn has no colon, as the digits of `hex` have none. -/
theorem plain_event_id (hhex : ∀ n, Plain (env.uuid4.hex12 n)) {draws : Nat} {id : String}
    (h : DrawnBefore env "evt_" draws id) : Plain id := by
  obtain ⟨n, -, rfl⟩ := h
  exact plain_append (by decide) (hhex n)

theorem Known.later {w w' : World} {event other : OutboxEvent} {published_at : Option Int}
    (h : Known w event) (hother : Known w other)
    (hput : w'.store.domain_events_outbox = w.store.domain_events_outbox.put
      { other with status := "published", published_at := published_at }) : Known w' event := by
  obtain ⟨status, at_, hevent⟩ := h
  obtain ⟨status', at', hother⟩ := hother
  unfold Known
  rw [hput]
  by_cases hid : event.event_id = other.event_id
  · have hsame := hother.symm.trans ((congrArg _ hid.symm).trans hevent)
    have hmarked := congrArg (fun e : OutboxEvent =>
      { e with status := "published", published_at := published_at }) (Option.some.inj hsame)
    refine ⟨"published", published_at, ?_⟩
    rw [Table.get?_put, if_pos hid]
    exact congrArg some hmarked
  · refine ⟨status, at_, ?_⟩
    rw [Table.get?_put, if_neg hid]
    exact hevent

/-- The outbox after an event of it was marked. -/
theorem get?_marked {w w' : World} {event : OutboxEvent} {published_at : Option Int}
    (hput : w'.store.domain_events_outbox = w.store.domain_events_outbox.put
      { event with status := "published", published_at := published_at }) {id : String}
    {found : OutboxEvent} (h : w'.store.domain_events_outbox.get? id = some found) :
    id = event.event_id ∧ found =
        { event with status := "published", published_at := published_at } ∨
      id ≠ event.event_id ∧ w.store.domain_events_outbox.get? id = some found := by
  rw [hput, Table.get?_put] at h
  split at h
  · rename_i hid
    cases h
    exact .inl ⟨hid, rfl⟩
  · rename_i hid
    exact .inr ⟨hid, h⟩

/-- The part of the invariant that does not speak of messages, over the mark
of an event. -/
structure Remarked (event : OutboxEvent) (w w' : World) : Prop where
  draws : w.draws ≤ w'.draws
  jobs : w'.store.jobs = w.store.jobs
  dlq : w'.store.dlq_items = w.store.dlq_items
  events : ∃ published_at, w'.store.domain_events_outbox = w.store.domain_events_outbox.put
    { event with status := "published", published_at := published_at }
  records : ∀ key, (w'.store.outbox_delivery_records.get? key).isSome →
    (w.store.outbox_delivery_records.get? key).isSome ∨
      ∃ consumer, key = outbox_delivery_key event.tenant_id event.event_id consumer

theorem Remarked.left {event : OutboxEvent} {w w' : World} {job_id : String}
    (h : Remarked event w w') (hleft : Left w job_id) : Left w' job_id := by
  unfold Left
  rw [h.jobs]
  exact hleft

theorem Remarked.announcement {event found : OutboxEvent} {w w' : World}
    (h : Remarked event w w') (hfound : Announcement w found) : Announcement w' found := by
  refine ⟨hfound.job_id, hfound.attempt, ?_⟩
  rw [h.jobs]
  exact hfound.job

theorem Remarked.in_place {event : OutboxEvent} {w w' : World} {key : String}
    (h : Remarked event w w') (hplace : InPlace env w key msg) : InPlace env w' key msg := by
  refine ⟨hplace.key, hplace.tenant, hplace.queue, ?_, ?_⟩
  · unfold StandsFor
    rw [h.jobs]
    exact hplace.stands
  · rcases hplace.due with ⟨n, hn, hdue⟩ | hleft
    · exact .inl ⟨n, Nat.lt_of_lt_of_le hn h.draws, hdue⟩
    · exact .inr (h.left hleft)

theorem Remarked.named {event : OutboxEvent} {w w' : World} (h : Remarked event w w')
    (hknown : Known w event) (hn : Named env w) : Named env w' := by
  obtain ⟨published_at, hput⟩ := h.events
  obtain ⟨status, at_, hstored⟩ := hknown
  refine ⟨fun id job hjob => ?_, fun id item hitem => ?_, fun id found hfound => ?_⟩
  · rw [h.jobs] at hjob
    exact (hn.jobs id job hjob).mono h.draws
  · rw [h.dlq] at hitem
    exact (hn.dlq id item hitem).mono h.draws
  · rcases get?_marked hput hfound with ⟨rfl, -⟩ | ⟨-, hold⟩
    · exact (hn.outbox _ _ hstored).mono h.draws
    · exact (hn.outbox id found hold).mono h.draws

/-- An event is marked when a message waits for its job, or when that job
needs none. -/
theorem Custody.remarked {event : OutboxEvent} (h : Custody env s)
    (hknown : Known s.world event) (hplain : Plain event.tenant_id)
    (hmarked : Remarked event s.world t.world)
    (hplaced : ∀ key m, m ∈ t.queue.deque key → InPlace env t.world key m)
    (hkept : ∀ key m, m ∈ s.queue.deque key → m ∈ t.queue.deque key)
    (hevent : Waits env t.queue event.aggregate_id event.tenant_id ∨
      Left t.world event.aggregate_id) : Custody env t := by
  obtain ⟨published_at, hput⟩ := hmarked.events
  obtain ⟨status, at_, hstored⟩ := id hknown
  have hannounced : Announcement s.world event := by
    have hold := h.announced _ _ hstored
    exact ⟨hold.job_id, hold.attempt, hold.job⟩
  refine ⟨hmarked.named hknown h.named, ?_, ?_, hplaced, ?_⟩
  · intro id found hfound
    rcases get?_marked hput hfound with ⟨-, rfl⟩ | ⟨-, hold⟩
    · exact hmarked.announcement ⟨hannounced.job_id, hannounced.attempt, hannounced.job⟩
    · exact hmarked.announcement (h.announced id found hold)
  · intro key hkey
    have hself : t.world.store.domain_events_outbox.get? event.event_id =
        some { event with status := "published", published_at := published_at } := by
      rw [hput]
      exact Table.get?_put_self _ _
    have hpublished : ("published" : String) ≠ "pending" := by decide
    rcases hmarked.records key hkey with hold | ⟨consumer, rfl⟩
    · obtain ⟨id, found, consumer, hfound, hstatus, hplain', rfl⟩ := h.recorded key hold
      by_cases hid : id = event.event_id
      · subst hid
        rw [hstored] at hfound
        cases hfound
        exact ⟨_, _, consumer, hself, hpublished, hplain, rfl⟩
      · refine ⟨id, found, consumer, ?_, hstatus, hplain', rfl⟩
        rw [hput, Table.get?_put, if_neg hid]
        exact hfound
    · exact ⟨_, _, consumer, hself, hpublished, hplain, rfl⟩
  · intro id found hfound
    rcases get?_marked hput hfound with ⟨-, rfl⟩ | ⟨-, hold⟩
    · exact .inr hevent
    · rcases h.carried id found hold with hpending | ⟨key, m, hm, hcarries⟩ | hleft
      · exact .inl hpending
      · exact .inr (.inl ⟨key, m, hkept key m hm, hcarries⟩)
      · exact .inr (.inr (hmarked.left hleft))

/-- An event that was marked and not sent: a consumer has got it before. -/
theorem Custody.marked {event : OutboxEvent} {consumer_name : String} (h : Custody env s)
    (hhex : ∀ n, Plain (env.uuid4.hex12 n)) (hknown : Known s.world event)
    (hplain : Plain event.tenant_id)
    (hsent : (get_outbox_delivery s.world.store event.tenant_id event.event_id
      consumer_name).isSome)
    (hmarked : Marked event s.world t.world) (hqueue : t.queue = s.queue) : Custody env t := by
  obtain ⟨published_at, hstore⟩ := hmarked.store
  have hremarked : Remarked event s.world t.world := by
    refine ⟨hmarked.draws, ?_, ?_, ⟨published_at, ?_⟩, fun key hkey => .inl ?_⟩
    · rw [hstore]
    · rw [hstore]
    · rw [hstore]
    · rw [hstore] at hkey
      exact hkey
  obtain ⟨status, at_, hstored⟩ := id hknown
  have hstill : Waits env s.queue event.aggregate_id event.tenant_id ∨
      Left s.world event.aggregate_id := by
    obtain ⟨id, found, consumer, hfound, hstatus, hplain', hkey⟩ := h.recorded _ hsent
    have hid :=
      event_of_delivery_key hplain hplain' (plain_event_id hhex (h.named.outbox _ _ hstored))
      (plain_event_id hhex (h.named.outbox _ _ hfound)) hkey
    subst hid
    rw [hstored] at hfound
    cases hfound
    exact (h.carried _ _ hstored).resolve_left hstatus
  refine h.remarked hknown hplain hremarked ?_ ?_ ?_
  · intro key m hm
    rw [hqueue] at hm
    exact hremarked.in_place (h.placed key m hm)
  · intro key m hm
    rw [hqueue]
    exact hm
  · rw [hqueue]
    exact hstill.imp_right hremarked.left

/-- An event that was sent: its message waits. -/
theorem Custody.sent {event : OutboxEvent} {queue_name consumer_name : String} (h : Custody env s)
    (hknown : Known s.world event) (hannounced : Announcement s.world event)
    (hjob : event.aggregate_id ≠ "") (hplain : Plain event.tenant_id) (hname : Plain queue_name)
    (hsent : Sent env event queue_name consumer_name s t) : Custody env t := by
  obtain ⟨record, published_at, hstore⟩ := hsent.store
  obtain ⟨msg, hmsg, hdeque⟩ := hsent.queue
  have hremarked : Remarked event s.world t.world := by
    refine ⟨hsent.draws, ?_, ?_, ⟨published_at, ?_⟩, fun key hkey => ?_⟩
    · rw [hstore]
    · rw [hstore]
    · rw [hstore]
    · rw [hstore] at hkey
      dsimp only at hkey
      rw [Dict.get?_set] at hkey
      split at hkey
      · rename_i heq
        exact .inr ⟨consumer_name, heq⟩
      · exact .inl hkey
  have hkept : ∀ key m, m ∈ s.queue.deque key → m ∈ t.queue.deque key := by
    intro key m hm
    rw [hdeque]
    split
    · exact List.mem_append_left _ hm
    · exact hm
  have hnew : ∀ key m, m ∈ t.queue.deque key →
      m ∈ s.queue.deque key ∨ key = queue_key msg.tenant_id msg.queue_name ∧ m = msg := by
    intro key m hm
    rw [hdeque] at hm
    split at hm
    · rename_i hkey
      rcases List.mem_append.1 hm with hold | hlast
      · exact .inl hold
      · exact .inr ⟨hkey, List.mem_singleton.1 hlast⟩
    · exact .inl hm
  refine h.remarked hknown hplain hremarked ?_ hkept (.inl ?_)
  · intro key m hm
    rcases hnew key m hm with hold | ⟨rfl, rfl⟩
    · exact hremarked.in_place (h.placed key m hold)
    · obtain ⟨job, hstored, htenant⟩ := (hremarked.announcement hannounced).job
      refine ⟨rfl, hmsg.tenant ▸ hplain, hmsg.queue ▸ hname, ⟨?_, job, ?_, ?_⟩, .inl hmsg.due⟩
      · rw [hmsg.job_id]
        exact hjob
      · rw [hmsg.job_id]
        exact hstored
      · rw [hmsg.tenant]
        exact htenant
  · refine ⟨queue_key msg.tenant_id msg.queue_name, msg, ?_, hmsg.job_id, hmsg.tenant⟩
    rw [hdeque, if_pos rfl]
    exact List.mem_append_right _ (List.mem_singleton_self _)

/-- The id of a job that was announced is a name that was drawn. -/
theorem Custody.job_id_ne {event : OutboxEvent} (h : Custody env s)
    (hannounced : Announcement s.world event) : event.aggregate_id ≠ "" := by
  obtain ⟨job, hjob, -⟩ := hannounced.job
  obtain ⟨n, -, hname⟩ := h.named.jobs _ job hjob
  rw [hname]
  intro hempty
  have hchars := congrArg String.toList hempty
  simp at hchars

theorem Custody.announcement {event : OutboxEvent} (h : Custody env s)
    (hknown : Known s.world event) : Announcement s.world event := by
  obtain ⟨status, published_at, hstored⟩ := hknown
  have hold := h.announced _ _ hstored
  exact ⟨hold.job_id, hold.attempt, hold.job⟩

theorem relay_event.keeps {event : OutboxEvent} {queue_name : String} (consumer_name : String)
    (message_ids : List String) (hhex : ∀ n, Plain (env.uuid4.hex12 n))
    (hplain : Plain event.tenant_id) (hname : Plain queue_name) (h : Custody env s)
    (hknown : Known s.world event) :
    Meets AnyStep (relay_event env event.tenant_id queue_name consumer_name message_ids event) s
      (fun res t => (∃ ids, res = .ok ids) ∧ Custody env t ∧
        (∀ other, Known s.world other → Known t.world other) ∧
        ∃ published_at, t.world.store.domain_events_outbox = s.world.store.domain_events_outbox.put
          { event with status := "published", published_at := published_at }) := by
  have hannounced := h.announcement hknown
  refine (relay_event.moves queue_name consumer_name message_ids hknown hannounced
    (h.job_id_ne hannounced)).post ?_
  rintro res t ⟨hok, ⟨hdelivered, hmarked, hqueue⟩ | hsent⟩
  · obtain ⟨published_at, hstore⟩ := hmarked.store
    have hput : t.world.store.domain_events_outbox = s.world.store.domain_events_outbox.put
        { event with status := "published", published_at := published_at } := by rw [hstore]
    exact ⟨hok, h.marked hhex hknown hplain hdelivered hmarked hqueue,
      fun other hother => hother.later hknown hput, published_at, hput⟩
  · obtain ⟨record, published_at, hstore⟩ := hsent.store
    have hput : t.world.store.domain_events_outbox = s.world.store.domain_events_outbox.put
        { event with status := "published", published_at := published_at } := by rw [hstore]
    exact ⟨hok, h.sent hknown hannounced (h.job_id_ne hannounced) hplain hname hsent,
      fun other hother => hother.later hknown hput, published_at, hput⟩

/-- What pends after a relay pended before, and was none of its events. -/
def StillPends (events : List OutboxEvent) (w w' : World) : Prop :=
  ∀ id found, w'.store.domain_events_outbox.get? id = some found → found.status = "pending" →
    w.store.domain_events_outbox.get? id = some found ∧ ∀ event ∈ events, event.event_id ≠ id

/-- The loop of a relay, by induction on its events. -/
theorem relay_events.keeps {tenant_id queue_name : String} (consumer_name : String)
    (hhex : ∀ n, Plain (env.uuid4.hex12 n)) (hplain : Plain tenant_id) (hname : Plain queue_name)
    (events : List OutboxEvent) (message_ids : List String) (h : Custody env s)
    (hevents : ∀ event ∈ events, event.tenant_id = tenant_id ∧ Known s.world event) :
    Meets AnyStep (events.foldlM (relay_event env tenant_id queue_name consumer_name) message_ids) s
      (fun res t =>
        (∃ ids, res = .ok ids) ∧ Custody env t ∧ StillPends events s.world t.world) := by
  induction events generalizing message_ids s with
  | nil =>
    rw [List.foldlM_nil, meets_pure]
    exact ⟨⟨_, rfl⟩, h, fun id found hfound _ => ⟨hfound, by simp⟩⟩
  | cons event rest ih =>
    obtain ⟨rfl, hknown⟩ := hevents event List.mem_cons_self
    rw [List.foldlM_cons]
    refine (relay_event.keeps consumer_name message_ids hhex hplain hname h hknown).bind ?_ ?_
    · rintro ids t ⟨-, hcustody, hstays, published_at, hput⟩
      have hrest : ∀ other ∈ rest, other.tenant_id = event.tenant_id ∧ Known t.world other := by
        intro other hother
        obtain ⟨htenant, hbefore⟩ := hevents other (List.mem_cons_of_mem _ hother)
        exact ⟨htenant, hstays other hbefore⟩
      refine (ih ids hcustody hrest).post ?_
      rintro res r ⟨hok, hlast, hpends⟩
      refine ⟨hok, hlast, fun id found hfound hpending => ?_⟩
      obtain ⟨hbefore, hnot⟩ := hpends id found hfound hpending
      rcases get?_marked hput hbefore with ⟨-, rfl⟩ | ⟨hid, hold⟩
      · exact absurd hpending (by simp)
      · refine ⟨hold, fun other hother => ?_⟩
        rcases List.mem_cons.1 hother with rfl | hother
        · exact fun heq => hid heq.symm
        · exact hnot other hother
    · rintro e t ⟨⟨ids, he⟩, -⟩
      cases he

theorem known_of_listed {tenant_id : String} {limit : Nat} {event : OutboxEvent}
    (h : event ∈ listed s tenant_id limit) : event.tenant_id = tenant_id ∧ Known s.world event := by
  obtain ⟨hstored, htenant, -⟩ := listed.spec h
  exact ⟨htenant, event.status, event.published_at, hstored⟩

theorem relay.keeps {tenant_id queue_name : String} (consumer_name : String) (limit : Nat)
    (hhex : ∀ n, Plain (env.uuid4.hex12 n)) (hplain : Plain tenant_id) (hname : Plain queue_name)
    (h : Custody env s) :
    Meets AnyStep (relay_outbox_events env tenant_id queue_name consumer_name limit) s
      (fun _ t => Custody env t ∧ StillPends (listed s tenant_id limit) s.world t.world) := by
  unfold relay_outbox_events
  rw [meets_bind, meets_read, then_ok]
  refine (relay_events.keeps consumer_name hhex hplain hname (listed s tenant_id limit) [] h
    fun event => known_of_listed).bind ?_ ?_
  · rintro ids t ⟨-, hcustody, hpends⟩
    rw [meets_pure]
    exact ⟨hcustody, hpends⟩
  · rintro e t ⟨⟨ids, he⟩, -⟩
    cases he

/-! ## Workers and drains -/

/-- A call that keeps the invariant, whatever it returns. -/
def KeepsCustody (env : Env) (m : Call α) : Prop := ∀ s, Custody env s → Custody env (m.final s)

theorem keeps_custody_pure (a : α) : KeepsCustody env (pure a : Call α) := fun _ h => h

theorem keeps_custody_bind {m : Call α} {f : α → Call β} (hm : KeepsCustody env m)
    (hf : ∀ a, KeepsCustody env (f a)) : KeepsCustody env (m >>= f) := by
  intro s h
  rcases hres : m.result s with e | a
  · rw [final_bind_error hres]
    exact hm s h
  · rw [final_bind hres]
    exact hf a _ (hm s h)

/-- A dequeue, and then one of the two ways to deal with its message. -/
theorem keeps_custody_dequeue {tenant_id queue_name : String} {f : Option QueueMessage → Call α}
    (hnone : ∀ t, Custody env t → Custody env ((f none).final t))
    (hsome : ∀ msg t, msg.tenant_id = tenant_id → Named env t.world →
      t.queue.inflight msg.message_id = some msg → ∃ r, Handled env msg t r ∧
        (Custody env r → Custody env ((f (some msg)).final t))) :
    KeepsCustody env (dequeue_message env tenant_id queue_name >>= f) := by
  intro s h
  rcases dequeue_message.moves env tenant_id queue_name s with
    ⟨msg, hres, htaken⟩ | ⟨hres, hidle⟩
  · rw [final_bind hres]
    have hnamed : Named env ((dequeue_message env tenant_id queue_name).final s).world :=
      htaken.world ▸ named_tick h.named
    obtain ⟨r, hhandled, hrest⟩ := hsome msg _ (h.own htaken).symm hnamed htaken.inflight
    exact hrest (h.round htaken hhandled)
  · rw [final_bind hres]
    exact hnone _ (h.idle hidle)

theorem process_next.keeps (queue_name tenant_id : String) (it : Iteration) :
    KeepsCustody env (process_next env (worker_runner env) queue_name tenant_id it) := by
  refine keeps_custody_dequeue (fun t h => h) ?_
  rintro msg t rfl hnamed hflying
  refine ⟨_, handle_message.handled RunFlags.default it.stats hnamed hflying, fun hround => ?_⟩
  dsimp only
  rw [final_bind_pure]
  exact hround

theorem list_worker_tenants.keeps (queue_name : String) :
    KeepsCustody env (list_worker_tenants queue_name) := fun _ h => h

theorem burst.keeps (rt : WorkerRuntime) (queue_name tenant_id : String) (left : Nat)
    (progressed : Bool) (it : Iteration) :
    KeepsCustody env
      (burst env rt (worker_runner env) queue_name tenant_id left progressed it) := by
  induction left generalizing progressed it with
  | zero => exact keeps_custody_pure _
  | succ left ih =>
    unfold burst
    split
    · exact keeps_custody_pure _
    · refine keeps_custody_bind (process_next.keeps _ _ _) ?_
      rintro ⟨handled, it'⟩
      dsimp only
      split
      · exact ih true it'
      · exact keeps_custody_pure _

theorem serve_tenants.keeps (rt : WorkerRuntime) (queue_name : String) (tenants : List String)
    (progressed : Bool) (it : Iteration) :
    KeepsCustody env
      (serve_tenants env rt (worker_runner env) queue_name tenants progressed it) := by
  induction tenants generalizing progressed it with
  | nil => exact keeps_custody_pure _
  | cons tenant_id rest ih =>
    refine keeps_custody_bind (burst.keeps rt _ _ _ _ _) ?_
    rintro ⟨progressed', it'⟩
    exact ih progressed' it'

theorem serve_queue.keeps (rt : WorkerRuntime) (queue_name : String) (fuel : Nat)
    (it : Iteration) :
    KeepsCustody env (serve_queue env rt (worker_runner env) queue_name fuel it) := by
  induction fuel generalizing it with
  | zero => exact keeps_custody_pure _
  | succ fuel ih =>
    unfold serve_queue
    split
    · refine keeps_custody_bind (list_worker_tenants.keeps queue_name) fun tenants => ?_
      dsimp only
      split
      · exact keeps_custody_pure _
      · refine keeps_custody_bind (serve_tenants.keeps rt _ _ _ _) ?_
        rintro ⟨progressed, it'⟩
        dsimp only
        split
        · exact ih it'
        · exact keeps_custody_pure _
    · exact keeps_custody_pure _

theorem run_once.keeps (rt : WorkerRuntime) (fuel : Nat) :
    KeepsCustody env (run_once env rt (worker_runner env) fuel) := by
  have hqueues : ∀ names it,
      KeepsCustody env (serve_queues env rt (worker_runner env) fuel names it) := by
    intro names
    induction names with
    | nil =>
      intro it
      exact keeps_custody_pure _
    | cons queue_name rest ih =>
      intro it
      refine keeps_custody_bind (serve_queue.keeps rt queue_name fuel it) fun done => ?_
      cases done with
      | none => exact keeps_custody_pure _
      | some it' => exact ih it'
  exact hqueues _ _

theorem drain_once.keeps (flags : RunFlags) (tenant_id queue_name : String) (left : Nat)
    (data : DrainData) :
    KeepsCustody env (drain_once env (drain_runner env flags) tenant_id queue_name left data) := by
  induction left generalizing data with
  | zero => exact keeps_custody_pure data
  | succ left ih =>
    refine keeps_custody_dequeue (fun t h => h) ?_
    rintro msg t rfl hnamed hflying
    refine ⟨_, drain_message.handled flags data hnamed hflying, fun hround => ?_⟩
    dsimp only
    rcases hres : (drain_message env (drain_runner env flags) msg.tenant_id data msg).result t with
      e | data'
    · rw [final_bind_error hres]
      exact hround
    · rw [final_bind hres]
      exact ih data' _ hround

/-! ## Runs -/

inductive Move where
  | op (op : operations.Op)
  | relay (tenant_id queue_name consumer_name : String) (limit : Nat)
  | work (rt : WorkerRuntime) (fuel : Nat)
  | drain (flags : RunFlags) (tenant_id queue_name : String) (max_messages : Nat)

/-- A call that raised leaves what it wrote. -/
def move (env : Env) (s : Service) : Move → Service
  | .op op => { s with world := perform env s.world op }
  | .relay tenant_id queue_name consumer_name limit =>
    (relay_outbox_events env tenant_id queue_name consumer_name limit).final s
  | .work rt fuel => (run_once env rt (worker_runner env) fuel).final s
  | .drain flags tenant_id queue_name max_messages =>
    (drain_once env (drain_runner env flags) tenant_id queue_name max_messages
      DrainData.zero).final s

def start : Service := ⟨World.start, queue_backend.new⟩

def after (env : Env) (moves : List Move) : Service := moves.foldl (move env) start

/-- Relays are for plain tenants and plain queues. -/
def Move.PlainNames : Move → Prop
  | .relay tenant_id queue_name _ _ => Plain tenant_id ∧ Plain queue_name
  | _ => True

theorem custody_start : Custody env start :=
  ⟨named_start, fun _ _ h => by simp [start, World.start, Store.empty] at h,
    fun _ h => by simp [start, World.start, Store.empty] at h,
    fun _ _ h => by simp [start] at h,
    fun _ _ h => by simp [start, World.start, Store.empty] at h⟩

theorem Custody.move (hhex : ∀ n, Plain (env.uuid4.hex12 n)) (h : Custody env s) (m : Move)
    (hm : m.PlainNames) : Custody env (move env s m) := by
  cases m with
  | op op =>
    exact h.flow (flow_op h.named op)
      (named_perform any_new any_free h.named op (permits_any op))
  | relay tenant_id queue_name consumer_name limit =>
    exact (relay.keeps consumer_name limit hhex hm.1 hm.2 h).2.1
  | work rt fuel => exact run_once.keeps rt fuel s h
  | drain flags tenant_id queue_name max_messages =>
    exact drain_once.keeps flags tenant_id queue_name max_messages DrainData.zero s h

theorem custody_after (hhex : ∀ n, Plain (env.uuid4.hex12 n)) (moves : List Move)
    (hmoves : ∀ m ∈ moves, m.PlainNames) : Custody env (after env moves) := by
  induction moves using List.reverseRecOn with
  | nil => exact custody_start
  | append_singleton moves m ih =>
    unfold after at ih ⊢
    rw [List.foldl_append]
    exact (ih fun m hm => hmoves m (List.mem_append_left _ hm)).move hhex m
      (hmoves m (List.mem_append_right _ (List.mem_singleton_self m)))

/-! ## The laws -/

/-- A worker can still hear of the job: its event is pending, or a message
for it stands in a queue of its tenant. -/
def Deliverable (env : Env) (s : Service) (job : Job) : Prop :=
  (∃ event ∈ s.world.store.domain_events_outbox.values, event.status = "pending" ∧
    event.aggregate_id = job.job_id ∧ event.tenant_id = job.tenant_id) ∨
  ∃ queue_name, ∃ msg ∈ s.queue.deque (queue_key job.tenant_id queue_name),
    job_id_of env msg = job.job_id ∧ msg.tenant_id = job.tenant_id

theorem Custody.delivers {job : Job} (h : Custody env s)
    (hjob : job ∈ s.world.store.jobs.values) (hqueued : job.status = .queued)
    (hevent : HasEvent s.world job) : Deliverable env s job := by
  obtain ⟨event, hstored, -, haggregate, htenant⟩ := hevent
  rcases h.carried _ event ((Table.mem_values_iff _ _).1 hstored) with
    hpending | ⟨key, msg, hmsg, hjob_id, hown⟩ | ⟨found, hfound, hleft⟩
  · exact .inl ⟨event, hstored, hpending, haggregate, htenant⟩
  · have hplace := h.placed key msg hmsg
    refine .inr ⟨msg.queue_name, msg, ?_, hjob_id.trans haggregate, hown.trans htenant⟩
    rw [← htenant, ← hown, ← hplace.key]
    exact hmsg
  · rw [haggregate, (Table.mem_values_iff _ _).1 hjob] at hfound
    cases hfound
    exact absurd hqueued hleft

/-- In every run, a job that was announced and has not started yet is
pending in the outbox or waits in a queue of its tenant. -/
theorem announced_jobs_are_never_lost (env : Env) (hhex : ∀ n, Plain (env.uuid4.hex12 n))
    (moves : List Move) (hmoves : ∀ m ∈ moves, m.PlainNames) :
    ∀ job ∈ (after env moves).world.store.jobs.values, job.status = .queued →
      HasEvent (after env moves).world job → Deliverable env (after env moves) job :=
  fun _ hjob hqueued hevent => (custody_after hhex moves hmoves).delivers hjob hqueued hevent

/-- An upload, and a relay of the event of its job. -/
def uploaded_then_relayed : List Move :=
  [.op (.upload bid_file false), .relay "tenant" "jobs" "worker-a" 50]

theorem hex_is_plain (n : Nat) : Plain (calm_env.uuid4.hex12 n) := by
  have hall : ∀ c ∈ (Uuid4.unary.hex12 n).toList, c = 'a' := by
    simp [Uuid4.unary]
  intro hcolon
  exact absurd (hall ':' hcolon) (by decide)

/-- The job of the upload is queued and announced, and it can be delivered. -/
theorem uploaded_job_is_deliverable :
    ∃ job ∈ (after calm_env uploaded_then_relayed).world.store.jobs.values,
      job.status = .queued ∧ Deliverable calm_env (after calm_env uploaded_then_relayed) job := by
  have hfound : ∃ job ∈ (after calm_env uploaded_then_relayed).world.store.jobs.values,
      job.status = .queued ∧ HasEvent (after calm_env uploaded_then_relayed).world job := by
    decide +kernel
  obtain ⟨job, hjob, hqueued, hevent⟩ := hfound
  have hplain : ∀ m ∈ uploaded_then_relayed, m.PlainNames := by
    intro m hm
    simp only [uploaded_then_relayed, List.mem_cons, List.not_mem_nil, or_false] at hm
    rcases hm with rfl | rfl
    · trivial
    · exact ⟨by decide, by decide⟩
  exact ⟨job, hjob, hqueued, announced_jobs_are_never_lost calm_env hex_is_plain _ hplain job hjob
    hqueued hevent⟩

/-- Where a queue name has a colon, a tenant can take a message that is not
its own: it cannot run the job, and nobody gets the message again. -/
theorem colon_loses_the_job : ∃ moves : List Move,
    ∃ job ∈ (after calm_env moves).world.store.jobs.values, job.status = .queued ∧
      HasEvent (after calm_env moves).world job ∧
        ¬ Deliverable calm_env (after calm_env moves) job := by
  refine ⟨[.op (.upload bid_file false), .relay "tenant" "other:queue:jobs" "worker-a" 50,
    .drain RunFlags.default "tenant:queue:other" "jobs" 1], ?_⟩
  set s := after calm_env [.op (.upload bid_file false),
    .relay "tenant" "other:queue:jobs" "worker-a" 50,
    .drain RunFlags.default "tenant:queue:other" "jobs" 1]
  have hfound : ∃ job ∈ s.world.store.jobs.values, job.status = .queued ∧ HasEvent s.world job := by
    decide +kernel
  have hsent : ∀ event ∈ s.world.store.domain_events_outbox.values, event.status ≠ "pending" := by
    decide +kernel
  have hempty : ∀ queue ∈ s.queue.queues.values, queue.length = 0 := by decide +kernel
  obtain ⟨job, hjob, hqueued, hevent⟩ := hfound
  refine ⟨job, hjob, hqueued, hevent, ?_⟩
  rintro (⟨event, hstored, hpending, -⟩ | ⟨queue_name, msg, hmsg, -⟩)
  · exact hsent event hstored hpending
  · obtain ⟨queue, hentry, hin⟩ := key_laws.mem_deque_iff.1 hmsg
    have hnil := hempty queue (List.mem_map_of_mem (f := Prod.snd) hentry)
    rw [List.length_eq_zero_iff.1 hnil] at hin
    cases hin

/-! ## A relay and a drain -/

theorem DrainData.count_processed (data : DrainData) (result : RunResult) :
    (data.count result).processed = data.processed := by
  unfold service.DrainData.count
  split
  · rfl
  · split <;> rfl

/-- A round that returned has counted its message. -/
theorem drain_message.counts {run_job_once : Runner} {tenant_id : String} {data data' : DrainData}
    (h : (drain_message env run_job_once tenant_id data msg).result s = .ok data') :
    data'.processed = data.processed + 1 := by
  have hmeets : Meets AnyStep (drain_message env run_job_once tenant_id data msg) s
      (fun res _ => ∀ data', res = .ok data' → data'.processed = data.processed + 1) := by
    unfold drain_message
    refine meets_ite.2 ⟨fun _ => ?_, fun _ => ?_⟩
    · refine ((keeps_true _).ends s).bind (fun _ _ _ => meets_pure.2 ?_) ?_
      · rintro _ ⟨⟩
        rfl
      · rintro e t _ _ ⟨⟩
    · refine ((keeps_true _).ends s).bind (fun result t _ => ?_) ?_
      · refine ((keeps_true _).ends t).bind (fun _ _ _ => meets_pure.2 ?_) ?_
        · rintro _ ⟨⟩
          rw [DrainData.count_processed]
        · rintro e r _ _ ⟨⟩
      · rintro e t _ _ ⟨⟩
  exact hmeets.2 data' h

/-- How a drain with rounds to spare ends: its last dequeue found nothing
due, and no round has posted an event. -/
theorem drain_once.ends_idle {flags : RunFlags} {tenant_id queue_name : String} {left : Nat}
    {data data' : DrainData} (h : Custody env s)
    (hres : (drain_once env (drain_runner env flags) tenant_id queue_name left data).result s =
      .ok data') (hspare : data'.processed < data.processed + left) :
    ∃ t, Idle env tenant_id queue_name t
        ((drain_once env (drain_runner env flags) tenant_id queue_name left data).final s) ∧
      ((drain_once env (drain_runner env flags) tenant_id queue_name left
        data).final s).world.store.domain_events_outbox =
          s.world.store.domain_events_outbox := by
  induction left generalizing data s with
  | zero =>
    cases hres
    exact absurd hspare (Nat.lt_irrefl _)
  | succ left ih =>
    unfold drain_once at hres ⊢
    rcases dequeue_message.moves env tenant_id queue_name s with
      ⟨msg, htook, htaken⟩ | ⟨htook, hidle⟩
    · rw [result_bind htook] at hres
      rw [final_bind htook]
      obtain rfl := h.own htaken
      have hnamed : Named env ((dequeue_message env msg.tenant_id queue_name).final s).world :=
        htaken.world ▸ named_tick h.named
      have hhandled := drain_message.handled flags data hnamed htaken.inflight
      have hevents := hhandled.settled.events.trans
        (congrArg (fun w : World => w.store.domain_events_outbox) htaken.world)
      rcases hround : (drain_message env (drain_runner env flags) msg.tenant_id data msg).result
          ((dequeue_message env msg.tenant_id queue_name).final s) with e | data₁
      · have herror := result_bind_error hround
          (f := fun data =>
            drain_once env (drain_runner env flags) msg.tenant_id queue_name left data)
        rw [herror] at hres
        cases hres
      · have hcount := drain_message.counts hround
        have hrest := result_bind hround
          (f := fun data =>
            drain_once env (drain_runner env flags) msg.tenant_id queue_name left data)
        have hlast := final_bind hround
          (f := fun data =>
            drain_once env (drain_runner env flags) msg.tenant_id queue_name left data)
        rw [hrest] at hres
        obtain ⟨t, hidle, hsame⟩ := ih (h.round htaken hhandled) hres (by omega)
        rw [hlast]
        exact ⟨t, hidle, hsame.trans hevents⟩
    · rw [final_bind htook]
      have hsame := congrArg (fun w : World => w.store.domain_events_outbox) hidle.world
      exact ⟨s, hidle, hsame⟩

/-- A relay with room lists all that pends. -/
theorem listed_all {tenant_id : String} {limit : Nat} {event : OutboxEvent}
    (hroom : (allPending s tenant_id).length ≤ max 1 (min limit 1000))
    (h : event ∈ allPending s tenant_id) : event ∈ listed s tenant_id limit := by
  rw [listed_eq, List.take_of_length_le]
  · exact List.mem_mergeSort.2 h
  · rw [List.length_mergeSort]
    exact hroom

/-- A job that waits in a queue with nothing due has left it before. -/
theorem Custody.left_of_idle {tenant_id queue_name : String} (h : Custody env t)
    (hclock : ∀ m n, m ≤ n → env.clock m ≤ env.clock n) (hidle : Idle env tenant_id queue_name s t)
    (hmsg : msg ∈ t.queue.deque (queue_key tenant_id queue_name)) :
    Left t.world (job_id_of env msg) := by
  rcases (h.placed _ msg hmsg).due with ⟨n, hn, hdue⟩ | hleft
  · have hearly := hidle.early msg ((hidle.same _ msg).1 hmsg)
    have hpassed : env.clock n ≤ env.clock s.world.draws := by
      refine hclock _ _ ?_
      rw [hidle.world] at hn
      exact Nat.le_of_lt_succ hn
    unfold is_available at hearly
    rw [hdue] at hearly
    simp only [decide_eq_false_iff_not] at hearly
    exact absurd hpassed hearly
  · exact hleft

end bid_evaluation.delivery
