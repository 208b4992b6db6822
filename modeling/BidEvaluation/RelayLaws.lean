-- The laws of the relay. A relay sends an event at most once to a consumer.
-- It sees only events that are pending, and the first relay of an event
-- publishes it for every consumer.
import Mathlib.Data.List.Perm.Subperm
import Mathlib.Data.List.TakeWhile
import BidEvaluation.OutboxRelay
import BidEvaluation.Endings
import BidEvaluation.Operations

open dict_lib stepwise bid_evaluation.values bid_evaluation.core bid_evaluation.store_ops
  bid_evaluation.frames bid_evaluation.operations bid_evaluation.endings
  bid_evaluation.queue_backend bid_evaluation.service

namespace bid_evaluation.outbox_relay

/-! ## Messages for a consumer -/

def isFor (event_id consumer_name : String) (msg : QueueMessage) : Bool :=
  match PyDict.get msg.payload "event_id", PyDict.get msg.payload "consumer_name" with
  | .str event, .str consumer => event = event_id && consumer = consumer_name
  | _, _ => false

/-- How many messages of the queues are for this event and this consumer. -/
def copies (q : InMemoryQueueBackend) (event_id consumer_name : String) : Nat :=
  (q.queues.values.map (List.countP (isFor event_id consumer_name))).sum

theorem copies_new (event_id consumer_name : String) :
    copies queue_backend.new event_id consumer_name = 0 := rfl

/-- An enqueue adds its one message. -/
theorem enqueue.copies (q : InMemoryQueueBackend) (now : Int)
    (uuid_hex tenant_id queue_name : String) {payload : PyDict} {attempt : Int}
    (h : (PyDict.getD payload "attempt" (.int 0)).toInt = .ok attempt) :
    ∃ msg, (enqueue q now uuid_hex tenant_id queue_name payload none).2 = .ok msg ∧
      msg.payload = payload ∧ ∀ event_id consumer_name,
        copies (enqueue q now uuid_hex tenant_id queue_name payload none).1 event_id consumer_name =
          copies q event_id consumer_name +
            if isFor event_id consumer_name msg then 1 else 0 := by
  unfold enqueue
  rw [h]
  refine ⟨_, rfl, rfl, ?_⟩
  intro event_id consumer_name
  set msg : QueueMessage :=
    ⟨"msg_" ++ uuid_hex, tenant_id, queue_name, payload, attempt, some (Option.getD none now)⟩
  set key := queue_key tenant_id queue_name
  have hsum := Dict.sum_values_set (List.countP (isFor event_id consumer_name)) q.queues key
    (q.deque key ++ [msg])
  have hold : ((q.queues.get? key).map (List.countP (isFor event_id consumer_name))).getD 0 =
      List.countP (isFor event_id consumer_name) (q.deque key) := by
    unfold InMemoryQueueBackend.deque
    cases q.queues.get? key <;> rfl
  rw [List.countP_append, List.countP_singleton, hold] at hsum
  change ((q.queues.set key (q.deque key ++ [msg])).values.map
    (List.countP (isFor event_id consumer_name))).sum = _
  unfold outbox_relay.copies
  omega

/-! ## The payload of a message -/

/-- The fields that the laws read, and the attempt, which the queue reads
again. -/
theorem relay_payload.fields {env : Env} {s : Store} {tenant_id consumer_name : String}
    {event : OutboxEvent} {payload : PyDict}
    (h : relay_payload env s tenant_id consumer_name event = .ok payload) :
    PyDict.get payload "event_id" = .str event.event_id ∧
      PyDict.get payload "consumer_name" = .str consumer_name ∧
      ∃ attempt, (PyDict.getD payload "attempt" (.int 0)).toInt = .ok attempt := by
  unfold relay_payload at h
  dsimp only at h
  cases htrace : trace_id_of env s tenant_id event.payload
      (PyDict.getD event.payload "job_id" (.str event.aggregate_id)) with
  | error e =>
    rw [htrace] at h
    cases h
  | ok trace_id =>
    rw [htrace] at h
    cases hattempt : (PyDict.getD event.payload "attempt" (.int 0)).toInt with
    | error e =>
      rw [hattempt] at h
      cases h
    | ok attempt =>
      rw [hattempt] at h
      cases h
      exact ⟨rfl, rfl, attempt, rfl⟩

/-- What can be read of an event depends on the jobs of the store alone. -/
theorem relay_payload_congr {env : Env} {s s' : Store} (h : s'.jobs = s.jobs)
    (tenant_id consumer_name : String) (event : OutboxEvent) :
    relay_payload env s' tenant_id consumer_name event =
      relay_payload env s tenant_id consumer_name event := by
  have hjob : ∀ job_id, get_job s' job_id = get_job s job_id := by
    intro job_id
    cases job_id <;> simp [get_job, h]
  simp only [relay_payload, trace_id_of, hjob]

/-! ## What a relay does -/

/-- The relay has marked the events `ids` as published, and has sent those of
`sent` to the consumer. -/
structure Relayed (tenant_id consumer_name : String) (ids sent : List String) (s s' : Service) :
    Prop where
  jobs : s'.world.store.jobs = s.world.store.jobs
  draws : s.world.draws ≤ s'.world.draws
  others : ∀ id, id ∉ ids →
    s'.world.store.domain_events_outbox.get? id = s.world.store.domain_events_outbox.get? id
  published : ∀ id ∈ ids, ∃ event, s.world.store.domain_events_outbox.get? id = some event ∧
    ∃ published_at, s'.world.store.domain_events_outbox.get? id =
      some { event with status := "published", published_at := published_at }
  records : ∀ key, (s'.world.store.outbox_delivery_records.get? key).isSome ↔
    (s.world.store.outbox_delivery_records.get? key).isSome ∨
      ∃ id ∈ sent, key = outbox_delivery_key tenant_id id consumer_name
  copies_eq : ∀ id consumer, copies s'.queue id consumer =
    copies s.queue id consumer + if consumer = consumer_name then sent.count id else 0

theorem Relayed.refl (tenant_id consumer_name : String) (s : Service) :
    Relayed tenant_id consumer_name [] [] s s := by
  refine ⟨rfl, le_refl _, fun _ _ => rfl, by simp, by simp, by simp⟩

/-- An event that has been marked twice is still published. -/
theorem Relayed.trans {tenant_id consumer_name : String} {ids sent ids' sent' : List String}
    {s s' s'' : Service} (h : Relayed tenant_id consumer_name ids sent s s')
    (h' : Relayed tenant_id consumer_name ids' sent' s' s'') :
    Relayed tenant_id consumer_name (ids ++ ids') (sent ++ sent') s s'' := by
  refine ⟨h'.jobs.trans h.jobs, le_trans h.draws h'.draws, ?_, ?_, ?_, ?_⟩
  · intro id hid
    rw [List.mem_append, not_or] at hid
    rw [h'.others id hid.2, h.others id hid.1]
  · intro id hid
    by_cases hlater : id ∈ ids'
    · obtain ⟨event', hevent', published_at, hpublished⟩ := h'.published id hlater
      by_cases hearlier : id ∈ ids
      · obtain ⟨event, hevent, at', hmarked⟩ := h.published id hearlier
        rw [hmarked] at hevent'
        cases hevent'
        exact ⟨event, hevent, published_at, hpublished⟩
      · rw [h.others id hearlier] at hevent'
        exact ⟨event', hevent', published_at, hpublished⟩
    · obtain ⟨event, hevent, published_at, hmarked⟩ :=
        h.published id ((List.mem_append.1 hid).resolve_right hlater)
      exact ⟨event, hevent, published_at, (h'.others id hlater).trans hmarked⟩
  · intro key
    rw [h'.records, h.records]
    simp only [List.mem_append, or_and_right, exists_or, or_assoc]
  · intro id consumer
    rw [h'.copies_eq, h.copies_eq, List.count_append]
    split <;> omega

/-- One event was marked. -/
theorem Relayed.of_put {tenant_id consumer_name : String} {sent : List String} {s s' : Service}
    {event : OutboxEvent} {published_at : Option Int}
    (hevent : s.world.store.domain_events_outbox.get? event.event_id = some event)
    (hjobs : s'.world.store.jobs = s.world.store.jobs) (hdraws : s.world.draws ≤ s'.world.draws)
    (hput : s'.world.store.domain_events_outbox = s.world.store.domain_events_outbox.put
      { event with status := "published", published_at := published_at })
    (hrecords : ∀ key, (s'.world.store.outbox_delivery_records.get? key).isSome ↔
      (s.world.store.outbox_delivery_records.get? key).isSome ∨
        ∃ id ∈ sent, key = outbox_delivery_key tenant_id id consumer_name)
    (hcopies : ∀ id consumer, copies s'.queue id consumer =
      copies s.queue id consumer + if consumer = consumer_name then sent.count id else 0) :
    Relayed tenant_id consumer_name [event.event_id] sent s s' := by
  refine ⟨hjobs, hdraws, ?_, ?_, hrecords, hcopies⟩
  · intro id hid
    rw [List.mem_singleton] at hid
    rw [hput, Table.get?_put, if_neg hid]
  · intro id hid
    rw [List.mem_singleton] at hid
    subst hid
    refine ⟨event, hevent, published_at, ?_⟩
    rw [hput, Table.get?_put, if_pos rfl]

section

variable {env : Env} {w : World} {s : Service}

theorem mark_outbox_event_published.spec {tenant_id event_id : String} {event : OutboxEvent}
    (hevent : w.store.domain_events_outbox.get? event_id = some event)
    (htenant : event.tenant_id = tenant_id) :
    Meets AnyStep (mark_outbox_event_published env tenant_id event_id) w (fun r w' =>
      (∃ a, r = .ok a) ∧ w.draws ≤ w'.draws ∧ w'.store = { w.store with
        domain_events_outbox := w.store.domain_events_outbox.put
          { event with status := "published", published_at := some (env.clock w.draws) } }) := by
  unfold mark_outbox_event_published
  apply saved.spec
  · simp only [meets_bind, meets_read, then_ok, hevent, assert_tenant_scope, htenant, ne_eq,
      not_true_eq_false, if_false, meets_pure]
    refine (utcnow.reads w).post ?_
    rintro r t ⟨rfl, rfl⟩
    simp [update, meets_bind]
  · rintro a t t' ⟨hok, hdraws, hstore⟩ hstore' hdraws'
    exact ⟨hok, by omega, hstore'.trans hstore⟩

theorem mark_outbox_delivered.spec {tenant_id event_id consumer_name : String} {event : OutboxEvent}
    (message_id : String) (hevent : w.store.domain_events_outbox.get? event_id = some event)
    (htenant : event.tenant_id = tenant_id)
    (hnone : get_outbox_delivery w.store tenant_id event_id consumer_name = none) :
    Meets AnyStep (mark_outbox_delivered env tenant_id event_id consumer_name message_id) w
      (fun r w' => (∃ a, r = .ok a) ∧ w.draws ≤ w'.draws ∧ ∃ record, w'.store = { w.store with
        outbox_delivery_records := w.store.outbox_delivery_records.set
          (outbox_delivery_key tenant_id event_id consumer_name) record }) := by
  unfold mark_outbox_delivered
  apply saved.spec
  · unfold get_outbox_delivery at hnone
    simp only [meets_bind, meets_read, then_ok, hevent, assert_tenant_scope, htenant, ne_eq,
      not_true_eq_false, if_false, meets_pure, hnone]
    refine (uuid4.reads w).post ?_
    rintro r t ⟨⟨hex, rfl⟩, rfl⟩
    rw [then_ok, meets_bind]
    refine (utcnow.reads _).post ?_
    rintro r t ⟨rfl, rfl⟩
    simp only [update, then_ok, meets_bind, meets_write, any_step, meets_pure, true_and]
    exact ⟨⟨_, rfl⟩, by omega, _, rfl⟩
  · rintro a t t' ⟨hok, hdraws, record, hstore⟩ hstore' hdraws'
    exact ⟨hok, by omega, record, hstore'.trans hstore⟩

/-- A call of the store, inside a call of the service. -/
theorem meets_in_store {m : Act α} {Q : Except PyErr α → World → Prop}
    (h : Meets AnyStep m s.world Q) :
    Meets AnyStep (in_store m) s (fun r s' => Q r s'.world ∧ s'.queue = s.queue) := by
  refine ((keeps_true (in_store m)).ends s).post ?_
  rintro r s' ⟨rfl, rfl⟩
  rw [result_in_store, final_in_store]
  exact ⟨h.2, rfl⟩

theorem enqueue_message.spec {tenant_id queue_name : String} {payload : PyDict} {attempt : Int}
    (h : (PyDict.getD payload "attempt" (.int 0)).toInt = .ok attempt) :
    Meets AnyStep (enqueue_message env tenant_id queue_name payload) s (fun r s' =>
      s'.world.store = s.world.store ∧ s.world.draws ≤ s'.world.draws ∧
        ∃ msg, r = .ok msg ∧ msg.payload = payload ∧ ∀ id consumer,
          copies s'.queue id consumer =
            copies s.queue id consumer + if isFor id consumer msg then 1 else 0) := by
  unfold enqueue_message
  refine (meets_in_store (uuid4.reads s.world)).bind ?_ ?_
  · rintro hex s₁ ⟨⟨-, hworld₁⟩, hqueue₁⟩
    refine (meets_in_store (utcnow.reads s₁.world)).bind ?_ ?_
    · rintro now s₂ ⟨⟨-, hworld₂⟩, hqueue₂⟩
      refine ((keeps_true _).ends s₂).post ?_
      rintro r s₃ ⟨rfl, rfl⟩
      rw [result_in_queue, final_in_queue]
      obtain ⟨msg, hmsg, hpayload, hcopies⟩ :=
        enqueue.copies s₂.queue now hex tenant_id queue_name h
      refine ⟨by rw [hworld₂, hworld₁], ?_, msg, hmsg, hpayload, ?_⟩
      · simp only [hworld₂, hworld₁]
        omega
      · intro id consumer
        rw [hcopies, hqueue₂, hqueue₁]
    · rintro e s₂ ⟨⟨he, -⟩, -⟩
      cases he
  · rintro e s₁ ⟨⟨⟨hex, he⟩, -⟩, -⟩
    cases he

/-- What one round of the loop does to an event of the tenant. -/
theorem relay_event.spec (env : Env) {tenant_id : String} {event stored : OutboxEvent}
    (queue_name consumer_name : String) (message_ids : List String)
    (hstored : s.world.store.domain_events_outbox.get? event.event_id = some stored)
    (htenant : stored.tenant_id = tenant_id) :
    Meets AnyStep (relay_event env tenant_id queue_name consumer_name message_ids event) s
      (fun r s' =>
        match get_outbox_delivery s.world.store tenant_id event.event_id consumer_name,
          relay_payload env s.world.store tenant_id consumer_name event with
        | some _, _ => (∃ a, r = .ok a) ∧
            Relayed tenant_id consumer_name [event.event_id] [] s s'
        | none, .ok _ => (∃ a, r = .ok a) ∧
            Relayed tenant_id consumer_name [event.event_id] [event.event_id] s s'
        | none, .error e => r = .error e ∧ s' = s) := by
  have hid : stored.event_id = event.event_id := Table.key_of_get? _ hstored
  unfold relay_event
  simp only [meets_bind, meets_read, then_ok]
  cases hdelivery : get_outbox_delivery s.world.store tenant_id event.event_id consumer_name with
  | some record =>
    dsimp only
    refine (meets_in_store (mark_outbox_event_published.spec hstored htenant)).bind ?_ ?_
    · rintro marked s' ⟨⟨-, hdraws, hstore⟩, hqueue⟩
      rw [meets_pure, ← hid]
      rw [← hid] at hstored
      refine ⟨⟨_, rfl⟩, Relayed.of_put hstored (by rw [hstore]) hdraws (by rw [hstore]) ?_ ?_⟩
      · simp [hstore]
      · simp [hqueue]
    · rintro e s' ⟨⟨⟨a, he⟩, -⟩, -⟩
      cases he
  | none =>
    dsimp only
    rw [meets_bind, meets_lift]
    cases hpayload : relay_payload env s.world.store tenant_id consumer_name event with
    | error e => exact ⟨rfl, rfl⟩
    | ok payload =>
      obtain ⟨hevent_id, hconsumer, attempt, hattempt⟩ := relay_payload.fields hpayload
      dsimp only
      rw [then_ok]
      refine (enqueue_message.spec hattempt).bind ?_ ?_
      · rintro msg s₁ ⟨hstore₁, hdraws₁, _, ⟨⟩, hmsg, hcopies⟩
        rw [← hstore₁] at hstored hdelivery
        refine (meets_in_store (mark_outbox_delivered.spec msg.message_id hstored htenant
          hdelivery)).bind ?_ ?_
        · rintro delivery s₂ ⟨⟨-, hdraws₂, record, hstore₂⟩, hqueue₂⟩
          have hstored₂ :
              s₂.world.store.domain_events_outbox.get? event.event_id = some stored := by
            rw [hstore₂]
            exact hstored
          refine (meets_in_store (mark_outbox_event_published.spec hstored₂ htenant)).bind ?_ ?_
          · rintro marked s₃ ⟨⟨-, hdraws₃, hstore₃⟩, hqueue₃⟩
            rw [meets_pure, ← hid]
            rw [hstore₂, hstore₁] at hstore₃
            rw [hstore₁, ← hid] at hstored
            refine ⟨⟨_, rfl⟩, Relayed.of_put hstored (by rw [hstore₃]) (by omega)
              (by rw [hstore₃]) ?_ ?_⟩
            · intro key
              rw [hstore₃]
              simp only [Dict.get?_set, List.mem_singleton, exists_eq_left, ← hid]
              by_cases hkey : key = outbox_delivery_key tenant_id stored.event_id consumer_name
              · simp [hkey]
              · simp [hkey]
            · intro id consumer
              rw [hqueue₃, hqueue₂, hcopies]
              simp only [isFor, hmsg, hevent_id, hconsumer, List.count_singleton, ← hid]
              by_cases hown : consumer = consumer_name
              · subst hown
                by_cases hsame : stored.event_id = id <;> simp [hsame]
              · simp [hown, Ne.symm hown]
          · rintro e s₃ ⟨⟨⟨a, he⟩, -⟩, -⟩
            cases he
        · rintro e s₂ ⟨⟨⟨a, he⟩, -⟩, -⟩
          cases he
      · rintro e s₁ ⟨-, -, msg, he, -⟩
        cases he

/-! ## The loop of a relay -/

/-- The loop goes on after this event. -/
def goes_on (env : Env) (s : Service) (tenant_id consumer_name : String) (event : OutboxEvent) :
    Bool :=
  (get_outbox_delivery s.world.store tenant_id event.event_id consumer_name).isSome ||
    (relay_payload env s.world.store tenant_id consumer_name event).toOption.isSome

/-- The events that the loop marks. -/
def handled (env : Env) (s : Service) (tenant_id consumer_name : String)
    (events : List OutboxEvent) : List OutboxEvent :=
  events.takeWhile (goes_on env s tenant_id consumer_name)

/-- The events that it sends. -/
def sent (env : Env) (s : Service) (tenant_id consumer_name : String)
    (events : List OutboxEvent) : List OutboxEvent :=
  (handled env s tenant_id consumer_name events).filter fun event =>
    (get_outbox_delivery s.world.store tenant_id event.event_id consumer_name).isNone

theorem delivery_key_inj {tenant_id consumer_name id id' : String}
    (h : outbox_delivery_key tenant_id id consumer_name =
      outbox_delivery_key tenant_id id' consumer_name) : id = id' := by
  unfold outbox_delivery_key at h
  have hleft := String.append_left_inj _ |>.1 h
  have hmiddle := String.append_left_inj _ |>.1 hleft
  exact String.append_right_inj _ |>.1 hmiddle

/-- An event reads the same after another one was relayed. -/
theorem Relayed.same_delivery {tenant_id consumer_name : String} {ids sent : List String}
    {s s' : Service} (h : Relayed tenant_id consumer_name ids sent s s') {id : String}
    (hid : id ∉ sent) :
    (get_outbox_delivery s'.world.store tenant_id id consumer_name).isSome =
      (get_outbox_delivery s.world.store tenant_id id consumer_name).isSome := by
  unfold get_outbox_delivery
  rw [Bool.eq_iff_iff, h.records]
  constructor
  · rintro (hold | ⟨id', hsent, hkey⟩)
    · exact hold
    · exact absurd (delivery_key_inj hkey ▸ hsent) hid
  · exact Or.inl

theorem takeWhile_congr {p p' : OutboxEvent → Bool} {events : List OutboxEvent}
    (h : ∀ event ∈ events, p event = p' event) : events.takeWhile p = events.takeWhile p' := by
  induction events with
  | nil => rfl
  | cons event rest ih =>
    simp only [List.takeWhile_cons, h event List.mem_cons_self,
      ih fun later hlater => h later (List.mem_cons_of_mem _ hlater)]

theorem Relayed.same_rest {tenant_id consumer_name : String} {ids sent : List String}
    {s s' : Service} (env : Env) (h : Relayed tenant_id consumer_name ids sent s s')
    (events : List OutboxEvent) (hfresh : ∀ event ∈ events, event.event_id ∉ sent) :
    handled env s' tenant_id consumer_name events = handled env s tenant_id consumer_name events ∧
      outbox_relay.sent env s' tenant_id consumer_name events =
        outbox_relay.sent env s tenant_id consumer_name events := by
  have hgoes : ∀ event ∈ events, goes_on env s' tenant_id consumer_name event =
      goes_on env s tenant_id consumer_name event := by
    intro event hevent
    unfold goes_on
    rw [h.same_delivery (hfresh event hevent), relay_payload_congr h.jobs]
  have hhandled : handled env s' tenant_id consumer_name events =
      handled env s tenant_id consumer_name events := takeWhile_congr hgoes
  refine ⟨hhandled, ?_⟩
  unfold outbox_relay.sent
  rw [hhandled]
  apply List.filter_congr
  intro event hevent
  have hsame := h.same_delivery (hfresh event (List.takeWhile_subset _ hevent))
  rw [← Option.not_isSome, ← Option.not_isSome, hsame]

/-- The loop of a relay, over events of its tenant. -/
theorem relay_events.spec {tenant_id consumer_name : String} (queue_name : String)
    (events : List OutboxEvent) (message_ids : List String)
    (hnodup : (events.map OutboxEvent.event_id).Nodup)
    (hstored : ∀ event ∈ events, ∃ stored,
      s.world.store.domain_events_outbox.get? event.event_id = some stored ∧
        stored.tenant_id = tenant_id) :
    Meets AnyStep (events.foldlM (relay_event env tenant_id queue_name consumer_name) message_ids) s
      (fun _ s' => Relayed tenant_id consumer_name
        ((handled env s tenant_id consumer_name events).map OutboxEvent.event_id)
        ((sent env s tenant_id consumer_name events).map OutboxEvent.event_id) s s') := by
  induction events generalizing s message_ids with
  | nil =>
    rw [List.foldlM_nil, meets_pure]
    exact Relayed.refl tenant_id consumer_name s
  | cons event rest ih =>
    rw [List.map_cons, List.nodup_cons] at hnodup
    obtain ⟨stored, hget, htenant⟩ := hstored event List.mem_cons_self
    have hfresh : ∀ later ∈ rest, later.event_id ∉ [event.event_id] := by
      intro later hlater hmem
      rw [List.mem_singleton] at hmem
      exact hnodup.1 (hmem ▸ List.mem_map_of_mem hlater)
    have hrest : ∀ (acc : List String) (ids : List String) (s' : Service),
        ids ⊆ [event.event_id] → Relayed tenant_id consumer_name [event.event_id] ids s s' →
        Meets AnyStep (rest.foldlM (relay_event env tenant_id queue_name consumer_name) acc) s'
          (fun _ s'' => Relayed tenant_id consumer_name
            (event.event_id ::
              (handled env s tenant_id consumer_name rest).map OutboxEvent.event_id)
            (ids ++ (sent env s tenant_id consumer_name rest).map OutboxEvent.event_id) s s'') := by
      intro acc ids s' hids hrelayed
      obtain ⟨hhandled, hsent⟩ := hrelayed.same_rest env rest
        fun later hlater hmem => hfresh later hlater (hids hmem)
      have hkept : ∀ later ∈ rest, ∃ stored,
          s'.world.store.domain_events_outbox.get? later.event_id = some stored ∧
            stored.tenant_id = tenant_id := by
        intro later hlater
        rw [hrelayed.others later.event_id (hfresh later hlater)]
        exact hstored later (List.mem_cons_of_mem _ hlater)
      refine (ih acc hnodup.2 hkept).post ?_
      intro r s'' hthen
      rw [hhandled, hsent] at hthen
      exact hrelayed.trans hthen
    have hround := relay_event.spec env queue_name consumer_name message_ids hget htenant
    rw [List.foldlM_cons]
    unfold handled sent handled goes_on
    cases hdelivery : get_outbox_delivery s.world.store tenant_id event.event_id consumer_name with
    | some record =>
      rw [hdelivery] at hround
      simp only [List.takeWhile_cons, hdelivery, Option.isSome_some, Bool.true_or, if_true,
        List.filter_cons, Option.isNone_some, Bool.false_eq_true, if_false, List.map_cons]
      refine hround.bind ?_ ?_
      · rintro acc s' ⟨-, hrelayed⟩
        exact hrest acc [] s' (by simp) hrelayed
      · rintro e s' ⟨⟨a, he⟩, -⟩
        cases he
    | none =>
      cases hpayload : relay_payload env s.world.store tenant_id consumer_name event with
      | ok payload =>
        rw [hdelivery, hpayload] at hround
        simp only [List.takeWhile_cons, hdelivery, hpayload, Option.isSome_none, Bool.false_or,
          Except.toOption, Option.isSome_some, if_true, List.filter_cons, Option.isNone_none,
          List.map_cons]
        refine hround.bind ?_ ?_
        · rintro acc s' ⟨-, hrelayed⟩
          exact hrest acc [event.event_id] s' (by simp) hrelayed
        · rintro e s' ⟨⟨a, he⟩, -⟩
          cases he
      | error e =>
        rw [hdelivery, hpayload] at hround
        simp only [List.takeWhile_cons, hdelivery, hpayload, Option.isSome_none, Bool.false_or,
          Except.toOption, Bool.false_eq_true, if_false, List.filter_nil, List.map_nil]
        refine hround.bind ?_ ?_
        · rintro acc s' ⟨he, -⟩
          cases he
        · rintro e' s' ⟨-, rfl⟩
          exact Relayed.refl tenant_id consumer_name s'

/-! ## The events that a relay lists -/

/-- The pending events of a tenant, oldest first. -/
def listed (s : Service) (tenant_id : String) (limit : Nat) : List OutboxEvent :=
  list_outbox_events s.world.store tenant_id (some "pending") limit

def allPending (s : Service) (tenant_id : String) : List OutboxEvent :=
  (s.world.store.domain_events_outbox.values.filter (fun e => e.tenant_id = tenant_id)).filter
    (fun e => e.status = "pending")

theorem listed_eq (s : Service) (tenant_id : String) (limit : Nat) :
    listed s tenant_id limit = ((allPending s tenant_id).mergeSort
      (fun x y => x.created_at ≤ y.created_at)).take (max 1 (min limit 1000)) := by
  simp [listed, list_outbox_events, allPending]

theorem mem_allPending {tenant_id : String} {event : OutboxEvent} :
    event ∈ allPending s tenant_id ↔
      s.world.store.domain_events_outbox.get? event.event_id = some event ∧
        event.tenant_id = tenant_id ∧ event.status = "pending" := by
  unfold allPending
  simp only [List.mem_filter, decide_eq_true_eq, Table.mem_values_iff, and_assoc]

theorem listed.spec {tenant_id : String} {limit : Nat} {event : OutboxEvent}
    (h : event ∈ listed s tenant_id limit) :
    s.world.store.domain_events_outbox.get? event.event_id = some event ∧
      event.tenant_id = tenant_id ∧ event.status = "pending" := by
  rw [listed_eq] at h
  exact mem_allPending.1 (List.mem_mergeSort.1 (List.mem_of_mem_take h))

theorem allPending.nodup (s : Service) (tenant_id : String) :
    ((allPending s tenant_id).map OutboxEvent.event_id).Nodup :=
  s.world.store.domain_events_outbox.keys_nodup.sublist
    ((List.filter_sublist.trans List.filter_sublist).map _)

theorem listed.nodup (s : Service) (tenant_id : String) (limit : Nat) :
    ((listed s tenant_id limit).map OutboxEvent.event_id).Nodup := by
  rw [listed_eq]
  refine List.Nodup.sublist ((List.take_sublist _ _).map _) ?_
  exact ((List.mergeSort_perm _ _).map _).nodup_iff.2 (allPending.nodup s tenant_id)

theorem relay_outbox_events.spec (tenant_id queue_name consumer_name : String) (limit : Nat) :
    Meets AnyStep (relay_outbox_events env tenant_id queue_name consumer_name limit) s
      (fun _ s' => Relayed tenant_id consumer_name
        ((handled env s tenant_id consumer_name (listed s tenant_id limit)).map
          OutboxEvent.event_id)
        ((sent env s tenant_id consumer_name (listed s tenant_id limit)).map OutboxEvent.event_id)
        s s') := by
  unfold relay_outbox_events
  simp only [meets_bind, meets_read, then_ok]
  have hstored : ∀ event ∈ listed s tenant_id limit, ∃ stored,
      s.world.store.domain_events_outbox.get? event.event_id = some stored ∧
        stored.tenant_id = tenant_id :=
    fun event hevent => ⟨event, (listed.spec hevent).1, (listed.spec hevent).2.1⟩
  refine (relay_events.spec queue_name (listed s tenant_id limit) []
    (listed.nodup s tenant_id limit) hstored).post ?_
  rintro (e | message_ids) s' hrelayed
  · exact hrelayed
  · rw [then_ok, meets_pure]
    exact hrelayed

theorem append_outbox_event.fresh (tenant_id event_type aggregate_type aggregate_id : String)
    (payload : PyDict) :
    Meets AnyStep
      (append_outbox_event env tenant_id event_type aggregate_type aggregate_id payload) w
      (fun _ w' => w.draws < w'.draws ∧
        ∃ event, event.event_id = "evt_" ++ env.uuid4.hex12 w.draws ∧
        w'.store = { w.store with
          domain_events_outbox := w.store.domain_events_outbox.put event }) := by
  unfold append_outbox_event
  apply saved.spec
  · simp only [uuid4_hex12, draw, utcnow, update, meets_bind, meets_read, meets_write, then_ok,
      meets_pure, any_step, true_and]
    exact ⟨by omega, _, rfl, rfl⟩
  · rintro a t t' ⟨hdraws, event, hid, hstore⟩ hstore' hdraws'
    exact ⟨by omega, event, hid, hstore'.trans hstore⟩

/-! ## The invariant -/

/-- A pending event has been sent to nobody. A message has its record, and
no consumer has two for one event. -/
structure Kept (env : Env) (s : Service) : Prop where
  drawn : ∀ id event, s.world.store.domain_events_outbox.get? id = some event →
    ∃ n, n < s.world.draws ∧ id = "evt_" ++ env.uuid4.hex12 n
  unsent : ∀ id event, s.world.store.domain_events_outbox.get? id = some event →
    event.status = "pending" → ∀ consumer, copies s.queue id consumer = 0
  known : ∀ id consumer, copies s.queue id consumer ≠ 0 →
    ∃ event, s.world.store.domain_events_outbox.get? id = some event
  once : ∀ id consumer, copies s.queue id consumer ≤ 1

theorem Kept.start (w : World) : Kept env (start w) where
  drawn := by
    intro id event h
    simp [outbox_relay.start] at h
  unsent := by
    intro id event h
    simp [outbox_relay.start] at h
  known := by
    intro id consumer h
    exact absurd (copies_new id consumer) h
  once := by
    intro id consumer
    exact le_of_eq_of_le (copies_new id consumer) (Nat.zero_le 1)

/-- What an append does. -/
structure Appended (env : Env) (s s' : Service) : Prop where
  queue : s'.queue = s.queue
  draws : s.world.draws < s'.world.draws
  put : ∃ event, event.event_id = "evt_" ++ env.uuid4.hex12 s.world.draws ∧
    s'.world.store.domain_events_outbox = s.world.store.domain_events_outbox.put event

theorem append.spec (env : Env) (s : Service)
    (tenant_id event_type aggregate_type aggregate_id : String) (payload : PyDict) :
    Appended env s
      (move env s (.append tenant_id event_type aggregate_type aggregate_id payload)) := by
  have hfinal : move env s (.append tenant_id event_type aggregate_type aggregate_id payload) =
      { s with world := (append_outbox_event env tenant_id event_type aggregate_type aggregate_id
        payload).final s.world } := final_in_store _
  obtain ⟨hdraws, event, hid, hstore⟩ := (append_outbox_event.fresh (w := s.world)
    tenant_id event_type aggregate_type aggregate_id payload).2
  rw [hfinal]
  exact ⟨rfl, hdraws, event, hid, by rw [hstore]⟩

theorem relay.spec (env : Env) (s : Service) (tenant_id queue_name consumer_name : String)
    (limit : Nat) :
    Relayed tenant_id consumer_name
      ((handled env s tenant_id consumer_name (listed s tenant_id limit)).map OutboxEvent.event_id)
      ((sent env s tenant_id consumer_name (listed s tenant_id limit)).map OutboxEvent.event_id)
      s (move env s (.relay tenant_id queue_name consumer_name limit)) :=
  (relay_outbox_events.spec tenant_id queue_name consumer_name limit).2

theorem Kept.appended {s' : Service} (h : Kept env s) (happended : Appended env s s') :
    Kept env s' := by
  obtain ⟨hqueue, hdraws, event, hid, hput⟩ := happended
  -- the id is new, so no message is for it
  have hnew : ∀ consumer, copies s.queue event.event_id consumer = 0 := by
    intro consumer
    by_contra hsome
    obtain ⟨old, hold⟩ := h.known _ _ hsome
    obtain ⟨n, hlt, hn⟩ := h.drawn _ _ hold
    have heq := env.uuid4.distinct (String.append_right_inj _ |>.1 (hid.symm.trans hn))
    omega
  constructor
  · intro id stored hstored
    rw [hput, Table.get?_put] at hstored
    split at hstored
    · rename_i heq
      exact ⟨s.world.draws, hdraws, heq.trans hid⟩
    · obtain ⟨n, hlt, hn⟩ := h.drawn id stored hstored
      exact ⟨n, by omega, hn⟩
  · intro id stored hstored hpending consumer
    rw [hput, Table.get?_put] at hstored
    rw [hqueue]
    split at hstored
    · rename_i heq
      exact heq ▸ hnew consumer
    · exact h.unsent id stored hstored hpending consumer
  · intro id consumer hsome
    rw [hqueue] at hsome
    obtain ⟨old, hold⟩ := h.known id consumer hsome
    rw [hput, Table.get?_put]
    split
    · exact ⟨event, rfl⟩
    · exact ⟨old, hold⟩
  · intro id consumer
    rw [hqueue]
    exact h.once id consumer

theorem sent_subset (env : Env) (s : Service) (tenant_id consumer_name : String)
    (events : List OutboxEvent) :
    sent env s tenant_id consumer_name events ⊆ handled env s tenant_id consumer_name events :=
  List.filter_subset_self _

theorem handled_subset (env : Env) (s : Service) (tenant_id consumer_name : String)
    (events : List OutboxEvent) : handled env s tenant_id consumer_name events ⊆ events :=
  List.takeWhile_subset _

theorem Kept.relayed {s' : Service} {tenant_id consumer_name : String} {ids sent : List String}
    (h : Kept env s) (hrelayed : Relayed tenant_id consumer_name ids sent s s')
    (hsent : sent ⊆ ids) (hnodup : sent.Nodup)
    (hpending : ∀ id ∈ sent, ∃ event,
      s.world.store.domain_events_outbox.get? id = some event ∧ event.status = "pending") :
    Kept env s' := by
  have hevent : ∀ id event, s.world.store.domain_events_outbox.get? id = some event →
      ∃ event', s'.world.store.domain_events_outbox.get? id = some event' := by
    intro id event hget
    by_cases hid : id ∈ ids
    · obtain ⟨_, _, _, hmarked⟩ := hrelayed.published id hid
      exact ⟨_, hmarked⟩
    · exact ⟨event, (hrelayed.others id hid).trans hget⟩
  constructor
  · intro id event' hget
    have hold : ∃ event, s.world.store.domain_events_outbox.get? id = some event := by
      by_cases hid : id ∈ ids
      · obtain ⟨event, hevent, _⟩ := hrelayed.published id hid
        exact ⟨event, hevent⟩
      · exact ⟨event', (hrelayed.others id hid).symm.trans hget⟩
    obtain ⟨event, hevent⟩ := hold
    obtain ⟨n, hlt, hn⟩ := h.drawn id event hevent
    exact ⟨n, lt_of_lt_of_le hlt hrelayed.draws, hn⟩
  · intro id event' hget hstatus consumer
    by_cases hid : id ∈ ids
    · obtain ⟨event, _, _, hmarked⟩ := hrelayed.published id hid
      rw [hmarked] at hget
      cases hget
      simp at hstatus
    · rw [hrelayed.others id hid] at hget
      rw [hrelayed.copies_eq, h.unsent id event' hget hstatus,
        List.count_eq_zero.2 fun hmem => hid (hsent hmem)]
      simp
  · intro id consumer hsome
    rw [hrelayed.copies_eq] at hsome
    by_cases hmem : id ∈ sent
    · obtain ⟨event, hget, -⟩ := hpending id hmem
      exact hevent id event hget
    · rw [List.count_eq_zero.2 hmem] at hsome
      obtain ⟨event, hget⟩ := h.known id consumer (by simpa using hsome)
      exact hevent id event hget
  · intro id consumer
    rw [hrelayed.copies_eq]
    have honce := h.once id consumer
    have hcount := List.nodup_iff_count_le_one.1 hnodup id
    by_cases hmem : id ∈ sent
    · obtain ⟨event, hget, hstatus⟩ := hpending id hmem
      rw [h.unsent id event hget hstatus]
      split <;> omega
    · rw [List.count_eq_zero.2 hmem]
      split <;> omega

theorem Kept.move (h : Kept env s) (m : Move) : Kept env (move env s m) := by
  cases m with
  | append tenant_id event_type aggregate_type aggregate_id payload =>
    exact h.appended (append.spec env s _ _ _ _ _)
  | relay tenant_id queue_name consumer_name limit =>
    refine h.relayed (relay.spec env s tenant_id queue_name consumer_name limit) ?_ ?_ ?_
    · exact List.map_subset _ (sent_subset env s tenant_id consumer_name _)
    · exact (listed.nodup s tenant_id limit).sublist
        ((List.filter_sublist.trans (List.takeWhile_sublist _)).map _)
    · intro id hid
      obtain ⟨event, hevent, rfl⟩ := List.mem_map.1 hid
      obtain ⟨hget, -, hpending⟩ := listed.spec (handled_subset env s tenant_id consumer_name _
        (sent_subset env s tenant_id consumer_name _ hevent))
      exact ⟨event, hget, hpending⟩

theorem Kept.moves (h : Kept env s) (moves : List Move) :
    Kept env (moves.foldl (outbox_relay.move env) s) := by
  induction moves generalizing s with
  | nil => exact h
  | cons m rest ih => exact ih (h.move m)

theorem kept_after (env : Env) (w : World) (moves : List Move) : Kept env (after env w moves) :=
  (Kept.start w).moves moves

theorem copies_mono (env : Env) (s : Service) (moves : List Move) (id consumer : String) :
    copies s.queue id consumer ≤ copies (moves.foldl (move env) s).queue id consumer := by
  induction moves generalizing s with
  | nil => exact le_refl _
  | cons m rest ih =>
    refine le_trans ?_ (ih (move env s m))
    cases m with
    | append tenant_id event_type aggregate_type aggregate_id payload =>
      rw [(append.spec env s tenant_id event_type aggregate_type aggregate_id payload).queue]
    | relay tenant_id queue_name consumer_name limit =>
      rw [(relay.spec env s tenant_id queue_name consumer_name limit).copies_eq]
      exact Nat.le_add_right _ _

/-! ## What a relay reaches -/

/-- The events of the tenant that the consumer has no message for. -/
def undelivered (s : Service) (tenant_id consumer_name : String) : List OutboxEvent :=
  s.world.store.domain_events_outbox.values.filter fun e =>
    e.tenant_id = tenant_id ∧ copies s.queue e.event_id consumer_name = 0

/-- The limit is enough for the event: for all that the consumer still has to
get and that is no younger. -/
structure Reached (s : Service) (tenant_id consumer_name : String) (limit : Nat)
    (event : OutboxEvent) : Prop where
  stored : s.world.store.domain_events_outbox.get? event.event_id = some event
  tenant : event.tenant_id = tenant_id
  room : ((undelivered s tenant_id consumer_name).filter
    (fun e => e.created_at ≤ event.created_at)).length ≤ max 1 (min limit 1000)

/-- The event is still pending, no record stands under its delivery key, and
its payload can be read. -/
structure Deliverable (env : Env) (s : Service) (tenant_id consumer_name : String)
    (event : OutboxEvent) : Prop where
  pending : event.status = "pending"
  unrecorded :
    get_outbox_delivery s.world.store tenant_id event.event_id consumer_name = none
  readable : ∃ payload, relay_payload env s.world.store tenant_id consumer_name event = .ok payload

/-- A relay lists an event that it reaches and that is pending. -/
theorem Kept.lists (h : Kept env s) {tenant_id consumer_name : String} {limit : Nat}
    {event : OutboxEvent} (hreached : Reached s tenant_id consumer_name limit event)
    (hpending : event.status = "pending") :
    ∃ earlier later, listed s tenant_id limit = earlier ++ event :: later ∧
      ∀ e ∈ earlier, Reached s tenant_id consumer_name limit e ∧
        copies s.queue e.event_id consumer_name = 0 := by
  have hmem : event ∈ (allPending s tenant_id).mergeSort (fun x y => x.created_at ≤ y.created_at) :=
    List.mem_mergeSort.2 (mem_allPending.2 ⟨hreached.stored, hreached.tenant, hpending⟩)
  obtain ⟨earlier, later, hsplit⟩ := List.append_of_mem hmem
  have hold : ∀ e ∈ earlier ++ [event], e ∈ allPending s tenant_id := by
    intro e he
    have hin : e ∈ earlier ++ event :: later := by
      rcases List.mem_append.1 he with h | h
      · exact List.mem_append_left _ h
      · exact List.mem_append_right _ (List.mem_cons.2 (.inl (List.mem_singleton.1 h)))
    rw [← hsplit] at hin
    exact List.mem_mergeSort.1 hin
  have hsorted : ∀ e ∈ earlier, e.created_at ≤ event.created_at := by
    have hpairs : List.Pairwise (fun x y => decide (x.created_at ≤ y.created_at) = true)
        ((allPending s tenant_id).mergeSort (fun x y => x.created_at ≤ y.created_at)) :=
      List.pairwise_mergeSort (by simpa using fun a b c => le_trans)
        (by simpa using fun a b => le_total _ _) _
    rw [hsplit, List.pairwise_append] at hpairs
    intro e he
    simpa using hpairs.2.2 e he event List.mem_cons_self
  have hnone : ∀ e ∈ earlier ++ [event], copies s.queue e.event_id consumer_name = 0 := by
    intro e he
    obtain ⟨hget, -, hstatus⟩ := mem_allPending.1 (hold e he)
    exact h.unsent e.event_id e hget hstatus consumer_name
  -- all that stand before the event are undelivered and no younger
  have hroom : (earlier ++ [event]).length ≤ max 1 (min limit 1000) := by
    have hnodup : (earlier ++ [event]).Nodup := by
      have hids := (List.mergeSort_perm (allPending s tenant_id)
        (fun x y => x.created_at ≤ y.created_at)).nodup_iff.2
          (List.Nodup.of_map _ (allPending.nodup s tenant_id))
      rw [hsplit] at hids
      refine hids.sublist ?_
      exact (List.singleton_sublist.2 List.mem_cons_self).append_left earlier
    refine le_trans (List.subperm_of_subset hnodup ?_).length_le hreached.room
    intro e he
    obtain ⟨hget, htenant, -⟩ := mem_allPending.1 (hold e he)
    have hyoung : e.created_at ≤ event.created_at := by
      rcases List.mem_append.1 he with hearlier | hsame
      · exact hsorted e hearlier
      · rw [List.mem_singleton.1 hsame]
    simp only [undelivered, List.mem_filter, decide_eq_true_eq, Table.mem_values_iff]
    exact ⟨⟨hget, htenant, hnone e he⟩, hyoung⟩
  refine ⟨earlier, later.take (max 1 (min limit 1000) - (earlier.length + 1)), ?_, ?_⟩
  · rw [List.length_append, List.length_singleton] at hroom
    have hlength : max 1 (min limit 1000) =
        earlier.length + (max 1 (min limit 1000) - (earlier.length + 1) + 1) := by omega
    rw [listed_eq, hsplit]
    conv => lhs; rw [hlength]
    rw [List.take_append, List.take_of_length_le (Nat.le_add_right _ _), Nat.add_sub_cancel_left,
      List.take_succ_cons]
  · intro e he
    have hin := List.mem_append_left [event] he
    obtain ⟨hget, htenant, -⟩ := mem_allPending.1 (hold e hin)
    refine ⟨⟨hget, htenant, le_trans ?_ hreached.room⟩, hnone e hin⟩
    refine (List.monotone_filter_right _ ?_).length_le
    intro other hother
    rw [decide_eq_true_eq] at hother ⊢
    exact le_trans hother (hsorted e he)

/-- The events that a relay reaches are sent, if each can be delivered. -/
theorem Kept.sends (h : Kept env s) {tenant_id consumer_name : String} {limit : Nat}
    (hall : ∀ e, Reached s tenant_id consumer_name limit e →
      copies s.queue e.event_id consumer_name = 0 → Deliverable env s tenant_id consumer_name e)
    {event : OutboxEvent} (hreached : Reached s tenant_id consumer_name limit event)
    (hnone : copies s.queue event.event_id consumer_name = 0) :
    event ∈ sent env s tenant_id consumer_name (listed s tenant_id limit) := by
  have hgoes : ∀ e, Deliverable env s tenant_id consumer_name e →
      goes_on env s tenant_id consumer_name e = true := by
    rintro e ⟨-, -, payload, hpayload⟩
    simp [goes_on, hpayload, Except.toOption]
  obtain ⟨earlier, later, hlist, hearlier⟩ := h.lists hreached (hall event hreached hnone).pending
  have hevent := hall event hreached hnone
  refine List.mem_filter.2 ⟨?_, by rw [hevent.unrecorded]; rfl⟩
  unfold handled
  rw [hlist, List.takeWhile_append_of_pos]
  · refine List.mem_append_right _ ?_
    rw [List.takeWhile_cons_of_pos (hgoes event hevent)]
    exact List.mem_cons_self
  · intro e he
    exact hgoes e (hall e (hearlier e he).1 (hearlier e he).2)

/-- A relay sends what can be delivered only. -/
theorem deliverable_of_sent {tenant_id consumer_name : String} {limit : Nat} {event : OutboxEvent}
    (h : event ∈ sent env s tenant_id consumer_name (listed s tenant_id limit)) :
    Deliverable env s tenant_id consumer_name event := by
  obtain ⟨hhandled, hnone⟩ := List.mem_filter.1 h
  have hgoes := List.mem_takeWhile_imp hhandled
  have hdelivery :
      get_outbox_delivery s.world.store tenant_id event.event_id consumer_name = none :=
    Option.isNone_iff_eq_none.1 hnone
  refine ⟨(listed.spec (handled_subset env s tenant_id consumer_name _ hhandled)).2.2,
    hdelivery, ?_⟩
  simp only [goes_on, hdelivery, Option.isSome_none, Bool.false_or] at hgoes
  cases hpayload : relay_payload env s.world.store tenant_id consumer_name event with
  | ok payload => exact ⟨payload, rfl⟩
  | error e =>
    rw [hpayload] at hgoes
    cases hgoes

/-- A relay sends all that it reaches exactly when all of it can be
delivered. -/
theorem Kept.delivers_iff (h : Kept env s) (tenant_id queue_name consumer_name : String)
    (limit : Nat) :
    (∀ event, Reached s tenant_id consumer_name limit event →
      copies (outbox_relay.move env s (.relay tenant_id queue_name consumer_name limit)).queue
        event.event_id consumer_name = 1) ↔
      ∀ event, Reached s tenant_id consumer_name limit event →
        copies s.queue event.event_id consumer_name = 0 →
        Deliverable env s tenant_id consumer_name event := by
  have hrelayed := relay.spec env s tenant_id queue_name consumer_name limit
  have hkept := h.move (.relay tenant_id queue_name consumer_name limit)
  constructor
  · intro hone event hreached hnone
    have hsent := hone event hreached
    rw [hrelayed.copies_eq, hnone, if_pos rfl, Nat.zero_add] at hsent
    have hmem := List.count_pos_iff.1 (hsent ▸ Nat.one_pos)
    obtain ⟨other, hother, hid⟩ := List.mem_map.1 hmem
    have hstored := (listed.spec (handled_subset env s tenant_id consumer_name _
      (sent_subset env s tenant_id consumer_name _ hother))).1
    rw [hid, hreached.stored] at hstored
    exact Option.some.inj hstored ▸ deliverable_of_sent hother
  · intro hall event hreached
    have honce := hkept.once event.event_id consumer_name
    by_cases hnone : copies s.queue event.event_id consumer_name = 0
    · have hmem := List.mem_map_of_mem (f := OutboxEvent.event_id) (h.sends hall hreached hnone)
      have hcount := List.count_pos_iff.2 hmem
      rw [hrelayed.copies_eq, if_pos rfl] at honce ⊢
      omega
    · rw [hrelayed.copies_eq] at honce ⊢
      omega

end

/-! ## The laws -/

/-- The consumer has exactly one message for each event that one of its
relays reached, from that relay on. -/
def EachConsumerGetsEachEvent (env : Env) (w : World) (moves : List Move) : Prop :=
  ∀ done tenant_id queue_name consumer_name limit later,
    done ++ .relay tenant_id queue_name consumer_name limit :: later <+: moves →
    ∀ event, Reached (after env w done) tenant_id consumer_name limit event →
      copies (after env w (done ++ .relay tenant_id queue_name consumer_name limit :: later)).queue
        event.event_id consumer_name = 1

theorem each_consumer_gets_each_event_iff (env : Env) (w : World) (moves : List Move) :
    EachConsumerGetsEachEvent env w moves ↔
      ∀ done tenant_id queue_name consumer_name limit,
        done ++ [.relay tenant_id queue_name consumer_name limit] <+: moves →
        ∀ event, Reached (after env w done) tenant_id consumer_name limit event →
          copies (after env w done).queue event.event_id consumer_name = 0 →
          Deliverable env (after env w done) tenant_id consumer_name event := by
  have hmoved : ∀ done m, after env w (done ++ [m]) = move env (after env w done) m := by
    intro done m
    simp [after]
  constructor
  · intro hall done tenant_id queue_name consumer_name limit hprefix
    have hone := hall done tenant_id queue_name consumer_name limit [] hprefix
    rw [hmoved] at hone
    exact ((kept_after env w done).delivers_iff tenant_id queue_name consumer_name limit).1 hone
  · intro hall done tenant_id queue_name consumer_name limit later hprefix event hreached
    have hshort : done ++ [.relay tenant_id queue_name consumer_name limit] <+: moves := by
      refine List.IsPrefix.trans ?_ hprefix
      exact ⟨later, by simp⟩
    have hone := ((kept_after env w done).delivers_iff tenant_id queue_name consumer_name limit).2
      (hall done tenant_id queue_name consumer_name limit hshort) event hreached
    have hmono := copies_mono env
      (move env (after env w done) (.relay tenant_id queue_name consumer_name limit)) later
      event.event_id consumer_name
    have honce := (kept_after env w
      (done ++ .relay tenant_id queue_name consumer_name limit :: later)).once event.event_id
        consumer_name
    have hsplit : after env w (done ++ .relay tenant_id queue_name consumer_name limit :: later) =
        later.foldl (move env)
          (move env (after env w done) (.relay tenant_id queue_name consumer_name limit)) := by
      simp [after]
    rw [hone] at hmono
    rw [hsplit] at honce ⊢
    omega

/-- The event of a job, and then two consumers that relay it. -/
def appended_then_relayed : List Move :=
  [.append "tenant" "job.created" "job" "job_a" [("job_id", .str "job_a")],
    .relay "tenant" "jobs" "worker-a" 50]

theorem second_consumer_gets_nothing :
    ¬ EachConsumerGetsEachEvent calm_env World.start
      (appended_then_relayed ++ [.relay "tenant" "jobs" "worker-b" 50]) := by
  intro hall
  have hfound : (((after calm_env World.start
      appended_then_relayed).world.store.domain_events_outbox.get? "evt_").map
        OutboxEvent.tenant_id) = some "tenant" := by decide +kernel
  obtain ⟨event, hevent, htenant⟩ := Option.map_eq_some_iff.1 hfound
  have hid : event.event_id = "evt_" := Table.key_of_get? _ hevent
  have hroom : (undelivered (after calm_env World.start appended_then_relayed) "tenant"
      "worker-b").length ≤ max 1 (min 50 1000) := by decide +kernel
  have hnone : copies (after calm_env World.start (appended_then_relayed ++
      [.relay "tenant" "jobs" "worker-b" 50])).queue "evt_" "worker-b" = 0 := by decide +kernel
  have hone := hall appended_then_relayed "tenant" "jobs" "worker-b" 50 [] (List.prefix_refl _)
    event ⟨hid.symm ▸ hevent, htenant, le_trans (List.length_filter_le _ _) hroom⟩
  rw [hid, hnone] at hone
  cases hone

end bid_evaluation.outbox_relay
