-- What one round of a relay, of the worker or of the drain route does to the
-- messages. A round takes one message, runs its job and puts the message
-- back at most; a relay only adds messages.
import BidEvaluation.DeliverySteps

open dict_lib stepwise bid_evaluation.values bid_evaluation.core bid_evaluation.store_ops
  bid_evaluation.store_admin bid_evaluation.job_run bid_evaluation.operations
  bid_evaluation.job_steps bid_evaluation.job_laws bid_evaluation.op_steps
  bid_evaluation.queue_backend bid_evaluation.service bid_evaluation.outbox_relay
  bid_evaluation.endings
open bid_evaluation.worker_laws (afterRun ticked ticked_queue final_with_now result_with_now now
  handle_no_job handle_raised handle_returned drain_no_job drain_raised drain_returned)

namespace bid_evaluation.delivery

variable {env : Env} {s t r : Service} {msg : QueueMessage}

/-! ## The end of a message -/

/-- The queue has lost no message. What is new in it is the message `msg`
again, with another attempt and another time. -/
structure Settled (env : Env) (msg : QueueMessage) (s t : Service) : Prop where
  flow : Flow s.world t.world
  named : Named env s.world → Named env t.world
  events : t.world.store.domain_events_outbox = s.world.store.domain_events_outbox
  kept : ∀ key m, m ∈ s.queue.deque key → m ∈ t.queue.deque key
  back : ∀ key m, m ∈ t.queue.deque key → m ∈ s.queue.deque key ∨
    key = queue_key m.tenant_id m.queue_name ∧ m.tenant_id = msg.tenant_id ∧
      m.queue_name = msg.queue_name ∧ m.payload = msg.payload

theorem Settled.trans (h : Settled env msg s t) (h' : Settled env msg t r) :
    Settled env msg s r := by
  refine ⟨h.flow.trans h'.flow, fun hn => h'.named (h.named hn), h'.events.trans h.events, ?_, ?_⟩
  · intro key m hm
    exact h'.kept key m (h.kept key m hm)
  · intro key m hm
    rcases h'.back key m hm with hold | hback
    · exact h.back key m hold
    · exact .inr hback

theorem named_tick {w : World} (hn : Named env w) : Named env { w with draws := w.draws + 1 } := by
  have hlater : w.draws ≤ w.draws + 1 := Nat.le_succ _
  exact ⟨fun id job h => (hn.jobs id job h).mono hlater,
    fun id item h => (hn.dlq id item h).mono hlater,
    fun id event h => (hn.outbox id event h).mono hlater⟩

theorem settled_tick (s : Service) : Settled env msg s (ticked s) :=
  ⟨flow_tick s.world, named_tick, rfl, fun _ _ hm => hm, fun _ _ hm => .inl hm⟩

theorem settled_ack (tenant_id message_id : String) (s : Service) :
    Settled env msg s ((ack_message tenant_id message_id).final s) := by
  have hdeque : ∀ key, ((queue_backend.ack s.queue tenant_id message_id).1).deque key =
      s.queue.deque key := by
    intro key
    unfold queue_backend.ack
    split
    · rfl
    · split <;> rfl
  unfold ack_message
  rw [final_in_queue]
  refine ⟨Flow.refl _, id, rfl, fun key m hm => ?_, fun key m hm => .inl ?_⟩
  · exact hdeque key ▸ hm
  · exact hdeque key ▸ hm

/-- A nack of a message in flight puts it back at the front of its own queue. -/
theorem nack_back {q : InMemoryQueueBackend} (due : Int) (delay_ms : Int)
    (h : q.inflight msg.message_id = some msg) : ∃ m,
    m.tenant_id = msg.tenant_id ∧ m.queue_name = msg.queue_name ∧ m.payload = msg.payload ∧
      ∀ key, ((nack q due msg.tenant_id msg.message_id true delay_ms).1).deque key =
        if key = queue_key msg.tenant_id msg.queue_name then m :: q.deque key else q.deque key := by
  unfold nack
  rw [h]
  dsimp only
  rw [if_neg (not_not.2 rfl), if_pos rfl]
  refine ⟨{ msg with
    attempt := msg.attempt + 1
    available_at := some (due + 1000 * max 0 delay_ms) }, rfl, rfl, rfl, fun key => ?_⟩
  have hset := deque_set ⟨q.queues, Function.update q.inflight msg.message_id none⟩
  dsimp only at hset
  rw [hset]
  split
  · rename_i hkey
    rw [hkey]
  · rfl

theorem settled_nack (delay_ms : Int) (h : s.queue.inflight msg.message_id = some msg) :
    Settled env msg s
      ((nack_message env msg.tenant_id msg.message_id true delay_ms).final s) := by
  unfold nack_message
  rw [final_with_now, final_in_queue]
  obtain ⟨m, htenant, hqueue, hpayload, hdeque⟩ := nack_back (now env s) delay_ms
    (show (ticked s).queue.inflight msg.message_id = some msg from h)
  refine (settled_tick s).trans ⟨Flow.refl _, id, rfl, ?_, ?_⟩
  · intro key m' hm'
    dsimp only
    rw [hdeque]
    split
    · exact List.mem_cons_of_mem _ hm'
    · exact hm'
  · intro key m' hm'
    dsimp only at hm'
    rw [hdeque] at hm'
    split at hm'
    · rename_i hkey
      rcases List.mem_cons.1 hm' with rfl | hold
      · rw [htenant, hqueue]
        exact .inr ⟨hkey, rfl, rfl, hpayload⟩
      · exact .inl hold
    · exact .inl hm'

theorem settled_settle (result : RunResult) (h : s.queue.inflight msg.message_id = some msg) :
    Settled env msg s ((settle env msg.tenant_id msg result).final s) := by
  unfold settle
  split
  · rw [final_bind_pure]
    exact settled_nack _ h
  · exact settled_ack _ _ s

/-! ## The run of its job -/

/-- The message stands for a job of its own tenant. -/
def StandsFor (env : Env) (w : World) (msg : QueueMessage) : Prop :=
  job_id_of env msg ≠ "" ∧ ∃ job, w.store.jobs.get? (job_id_of env msg) = some job ∧
    job.tenant_id = msg.tenant_id

theorem settled_run (flags : RunFlags) (hn : Named env s.world) :
    Settled env msg s (afterRun env (drain_runner env flags) msg.tenant_id msg s) := by
  have hevents := run_posts_nothing env (job_id_of env msg) msg.tenant_id flags s.world
  unfold afterRun drain_runner
  rw [final_run] at hevents ⊢
  refine ⟨flow_op hn _, fun hn => ?_, hevents, fun _ _ hm => hm, fun _ _ hm => .inl hm⟩
  exact named_perform any_new any_free hn _ (permits_any _)

/-- A message that was dealt with: its job has left the queue. -/
structure Handled (env : Env) (msg : QueueMessage) (s t : Service) : Prop where
  settled : Settled env msg s t
  left : StandsFor env s.world msg → Left t.world (job_id_of env msg)

/-- After the run of the job, whatever ends the round. -/
theorem handled_after_run (flags : RunFlags) (hn : Named env s.world)
    (h : Settled env msg (afterRun env (drain_runner env flags) msg.tenant_id msg s) t) :
    Handled env msg s t := by
  refine ⟨(settled_run flags hn).trans h, ?_⟩
  rintro ⟨-, job, hjob, htenant⟩
  refine h.flow.left ?_
  have hleft := run_leaves hn hjob flags
  rw [htenant] at hleft
  exact hleft

theorem handled_without_job (hno : job_id_of env msg = "") (h : Settled env msg s t) :
    Handled env msg s t :=
  ⟨h, fun hstands => absurd hno hstands.1⟩

theorem handle_message.handled (flags : RunFlags) (stats : WorkerRunStats) (hn : Named env s.world)
    (h : s.queue.inflight msg.message_id = some msg) :
    Handled env msg s
      ((handle_message env (drain_runner env flags) msg.tenant_id stats msg).final s) := by
  by_cases hjob : job_id_of env msg = ""
  · rw [handle_no_job stats hjob]
    exact handled_without_job hjob (settled_ack _ _ s)
  · rcases hrun : (drain_runner env flags (job_id_of env msg) msg.tenant_id).result s.world with
      e | result
    · rw [handle_raised stats hjob hrun]
      exact handled_after_run flags hn (settled_ack _ _ _)
    · rw [handle_returned stats hjob hrun]
      exact handled_after_run flags hn (settled_settle result h)

theorem drain_message.handled (flags : RunFlags) (data : DrainData) (hn : Named env s.world)
    (h : s.queue.inflight msg.message_id = some msg) :
    Handled env msg s
      ((drain_message env (drain_runner env flags) msg.tenant_id data msg).final s) := by
  by_cases hjob : job_id_of env msg = ""
  · rw [(drain_no_job _ data h hjob).2]
    exact handled_without_job hjob (settled_ack _ _ s)
  · rcases hrun : (drain_runner env flags (job_id_of env msg) msg.tenant_id).result s.world with
      e | result
    · have hraised : (drain_message env (drain_runner env flags) msg.tenant_id data msg).final s =
          afterRun env (drain_runner env flags) msg.tenant_id msg s := by
        have hstore :
          (in_store (drain_runner env flags (job_id_of env msg) msg.tenant_id)).result s =
            .error e := hrun
        unfold drain_message
        rw [if_neg hjob, final_bind_error hstore, final_in_store]
        rfl
      rw [hraised]
      exact handled_after_run flags hn
        ⟨Flow.refl _, id, rfl, fun _ _ hm => hm, fun _ _ hm => .inl hm⟩
    · rw [(drain_returned data h hjob hrun).2]
      exact handled_after_run flags hn (settled_settle result h)

/-! ## A message out of its queue -/

/-- The message `msg` was taken out of the queue of this key. -/
structure Taken (tenant_id queue_name : String) (msg : QueueMessage) (s t : Service) : Prop where
  world : t.world = (ticked s).world
  here : msg ∈ s.queue.deque (queue_key tenant_id queue_name)
  kept : ∀ key m, m ∈ s.queue.deque key → m ∈ t.queue.deque key ∨ m = msg
  old : ∀ key m, m ∈ t.queue.deque key → m ∈ s.queue.deque key
  inflight : t.queue.inflight msg.message_id = some msg

/-- No message of the key is due, and all are still there. -/
structure Idle (env : Env) (tenant_id queue_name : String) (s t : Service) : Prop where
  world : t.world = (ticked s).world
  same : ∀ key m, m ∈ t.queue.deque key ↔ m ∈ s.queue.deque key
  early : ∀ m ∈ s.queue.deque (queue_key tenant_id queue_name),
    is_available (now env s) m = false

/-- A scan that finds nothing has looked at every message. -/
theorem scan_none {due : Int} {left : Nat} {queue : List QueueMessage}
    (h : (scan due left queue).1 = none) : ∀ m ∈ queue.take left, is_available due m = false := by
  induction left generalizing queue with
  | zero => simp
  | succ left ih =>
    cases queue with
    | nil => simp
    | cons first rest =>
      unfold scan at h
      split at h
      · cases h
      · rename_i hearly
        intro m hm
        rcases List.mem_cons.1 hm with rfl | hm
        · simpa using hearly
        · exact ih h m (((List.prefix_append rest [first]).take left).subset hm)

theorem dequeue_none {q : InMemoryQueueBackend} {due : Int} {tenant_id queue_name : String}
    (h : (dequeue q due tenant_id queue_name).2 = none) :
    ∀ m ∈ q.deque (queue_key tenant_id queue_name), is_available due m = false := by
  have hscan : (scan due (q.deque (queue_key tenant_id queue_name)).length
      (q.deque (queue_key tenant_id queue_name))).1 = none := by
    unfold dequeue at h
    dsimp only at h
    split at h
    · rename_i heq
      rw [heq]
    · cases h
  have hall := scan_none hscan
  rw [List.take_length] at hall
  exact hall

theorem dequeue_message.final_eq (env : Env) (tenant_id queue_name : String) (s : Service) :
    (dequeue_message env tenant_id queue_name).final s =
        { ticked s with queue := (dequeue s.queue (now env s) tenant_id queue_name).1 } ∧
      (dequeue_message env tenant_id queue_name).result s =
        .ok (dequeue s.queue (now env s) tenant_id queue_name).2 := by
  unfold dequeue_message
  rw [final_with_now, final_in_queue, result_with_now, result_in_queue]
  exact ⟨rfl, rfl⟩

/-- A dequeue takes one message of its key, or leaves all of them. -/
theorem dequeue_message.moves (env : Env) (tenant_id queue_name : String) (s : Service) :
    (∃ msg, (dequeue_message env tenant_id queue_name).result s = .ok (some msg) ∧
      Taken tenant_id queue_name msg s ((dequeue_message env tenant_id queue_name).final s)) ∨
    (dequeue_message env tenant_id queue_name).result s = .ok none ∧
      Idle env tenant_id queue_name s ((dequeue_message env tenant_id queue_name).final s) := by
  obtain ⟨hfinal, hresult⟩ := dequeue_message.final_eq env tenant_id queue_name s
  rw [hfinal, hresult]
  obtain ⟨left, ⟨hdequeue, hperm⟩ | ⟨msg, hdequeue, -, hperm⟩⟩ :=
    dequeue.spec s.queue (now env s) tenant_id queue_name
  · right
    have hearly := dequeue_none (congrArg Prod.snd hdequeue)
    rw [hdequeue]
    refine ⟨rfl, rfl, fun key m => ?_, hearly⟩
    rw [deque_set]
    split
    · rename_i hkey
      rw [hkey, hperm.mem_iff]
    · rfl
  · left
    rw [hdequeue]
    have hset :=
      deque_set ⟨s.queue.queues, Function.update s.queue.inflight msg.message_id (some msg)⟩
      (queue_key tenant_id queue_name)
    dsimp only at hset ⊢
    refine ⟨msg, rfl, rfl, ?_, fun key m hm => ?_, fun key m hm => ?_, Function.update_self _ _ _⟩
    · exact hperm.mem_iff.1 List.mem_cons_self
    · rw [hset]
      split
      · rename_i hkey
        rw [hkey, ← hperm.mem_iff, List.mem_cons] at hm
        exact hm.symm
      · exact .inl hm
    · rw [hset] at hm
      split at hm
      · rename_i hkey
        rw [hkey, ← hperm.mem_iff]
        exact List.mem_cons_of_mem _ hm
      · exact hm

/-! ## A relay -/

/-- The outbox has this event, whatever became of it. -/
def Known (w : World) (event : OutboxEvent) : Prop :=
  ∃ status published_at, w.store.domain_events_outbox.get? event.event_id =
    some { event with status := status, published_at := published_at }

/-- The event was marked as published, and nothing was sent for it. -/
structure Marked (event : OutboxEvent) (w w' : World) : Prop where
  draws : w.draws ≤ w'.draws
  store : ∃ published_at, w'.store = { w.store with
    domain_events_outbox := w.store.domain_events_outbox.put
      { event with status := "published", published_at := published_at } }

/-- The message that a relay sends for an event. -/
structure SentFor (env : Env) (w : World) (event : OutboxEvent) (queue_name : String)
    (msg : QueueMessage) : Prop where
  tenant : msg.tenant_id = event.tenant_id
  queue : msg.queue_name = queue_name
  job_id : job_id_of env msg = event.aggregate_id
  due : ∃ n < w.draws, msg.available_at = some (env.clock n)

/-- The event was marked, and a message was sent and recorded for it. -/
structure Sent (env : Env) (event : OutboxEvent) (queue_name consumer_name : String)
    (s t : Service) : Prop where
  draws : s.world.draws ≤ t.world.draws
  store : ∃ record published_at, t.world.store = { s.world.store with
    outbox_delivery_records := s.world.store.outbox_delivery_records.set
      (outbox_delivery_key event.tenant_id event.event_id consumer_name) record
    domain_events_outbox := s.world.store.domain_events_outbox.put
      { event with status := "published", published_at := published_at } }
  queue : ∃ msg, SentFor env t.world event queue_name msg ∧ ∀ key, t.queue.deque key =
    if key = queue_key msg.tenant_id msg.queue_name then s.queue.deque key ++ [msg]
    else s.queue.deque key

/-- What is sent for the announcement of a job names that job. -/
theorem relay_payload.names (env : Env) {w : World} {event : OutboxEvent} (consumer_name : String)
    (h : Announcement w event) : ∃ payload,
    relay_payload env w.store event.tenant_id consumer_name event = .ok payload ∧
      PyDict.get payload "job_id" = .str event.aggregate_id ∧
      (PyDict.getD payload "attempt" (.int 0)).toInt = .ok 0 := by
  unfold relay_payload
  dsimp only
  rw [h.job_id, h.attempt]
  have htrace : ∃ trace_id, trace_id_of env w.store event.tenant_id event.payload
      (.str event.aggregate_id) = .ok trace_id := by
    unfold trace_id_of
    dsimp only
    split
    · exact ⟨_, rfl⟩
    · dsimp only [get_job]
      cases w.store.jobs.get? event.aggregate_id with
      | none => exact ⟨_, rfl⟩
      | some job => exact ⟨_, rfl⟩
  obtain ⟨trace_id, htrace⟩ := htrace
  rw [htrace]
  exact ⟨_, rfl, rfl, rfl⟩

theorem enqueue_message.sends {queue_name tenant_id : String} {payload : PyDict}
    (hattempt : (PyDict.getD payload "attempt" (.int 0)).toInt = .ok 0) :
    Meets AnyStep (enqueue_message env tenant_id queue_name payload) s (fun res t =>
      t.world.store = s.world.store ∧ s.world.draws ≤ t.world.draws ∧
        ∃ msg, res = .ok msg ∧ msg.payload = payload ∧ msg.tenant_id = tenant_id ∧
          msg.queue_name = queue_name ∧
          (∃ n < t.world.draws, msg.available_at = some (env.clock n)) ∧
          ∀ key, t.queue.deque key = if key = queue_key tenant_id queue_name then
            s.queue.deque key ++ [msg] else s.queue.deque key) := by
  unfold enqueue_message
  refine (meets_in_store (uuid4.reads s.world)).bind ?_ ?_
  · rintro hex s₁ ⟨⟨-, hworld₁⟩, hqueue₁⟩
    refine (meets_in_store (utcnow.reads s₁.world)).bind ?_ ?_
    · rintro now s₂ ⟨⟨hnow, hworld₂⟩, hqueue₂⟩
      cases hnow
      rw [iteration_laws.meets_in_queue]
      unfold enqueue
      rw [hattempt]
      have hsame : s₂.queue = s.queue := hqueue₂.trans hqueue₁
      refine ⟨?_, ?_, _, rfl, rfl, rfl, rfl, ⟨s₁.world.draws, ?_, rfl⟩, fun key => ?_⟩
      · rw [hworld₂, hworld₁]
      · rw [hworld₂, hworld₁]
        dsimp only
        omega
      · rw [hworld₂]
        exact Nat.lt_succ_self _
      · have hset := deque_set s₂.queue (queue_key tenant_id queue_name) key
        dsimp only at hset ⊢
        rw [hset, hsame]
        split
        · rename_i hkey
          rw [hkey]
        · rfl
    · rintro e s₂ ⟨⟨he, -⟩, -⟩
      cases he
  · rintro e s₁ ⟨⟨⟨hex, he⟩, -⟩, -⟩
    cases he

/-- One round of the loop of a relay, for the announcement of a job. -/
theorem relay_event.moves {event : OutboxEvent} (queue_name consumer_name : String)
    (message_ids : List String) (hknown : Known s.world event)
    (hevent : Announcement s.world event) (hjob : event.aggregate_id ≠ "") :
    Meets AnyStep (relay_event env event.tenant_id queue_name consumer_name message_ids event) s
      (fun res t => (∃ ids, res = .ok ids) ∧
        ((get_outbox_delivery s.world.store event.tenant_id event.event_id consumer_name).isSome ∧
            Marked event s.world t.world ∧ t.queue = s.queue ∨
          Sent env event queue_name consumer_name s t)) := by
  obtain ⟨status, published_at, hstored⟩ := hknown
  unfold relay_event
  simp only [meets_bind, meets_read, then_ok]
  cases hdelivery : get_outbox_delivery s.world.store event.tenant_id event.event_id
      consumer_name with
  | some record =>
    dsimp only
    refine (meets_in_store (mark_outbox_event_published.spec hstored rfl)).bind ?_ ?_
    · rintro marked t ⟨⟨-, hdraws, hstore⟩, hqueue⟩
      rw [meets_pure]
      exact ⟨⟨_, rfl⟩, .inl ⟨rfl, ⟨hdraws, _, hstore⟩, hqueue⟩⟩
    · rintro e t ⟨⟨⟨a, he⟩, -⟩, -⟩
      cases he
  | none =>
    dsimp only
    obtain ⟨payload, hpayload, hjob_id, hattempt⟩ :=
      relay_payload.names env consumer_name hevent
    rw [meets_bind, meets_lift, hpayload, then_ok]
    refine (enqueue_message.sends hattempt).bind ?_ ?_
    · rintro msg s₁ ⟨hstore₁, hdraws₁, _, ⟨⟩, hmsg, htenant, hqueue_name, ⟨n, hn, hdue⟩, hdeque⟩
      rw [← hstore₁] at hstored hdelivery
      refine (meets_in_store (mark_outbox_delivered.spec msg.message_id hstored rfl
        hdelivery)).bind ?_ ?_
      · rintro delivery s₂ ⟨⟨-, hdraws₂, record, hstore₂⟩, hqueue₂⟩
        have hstored₂ : s₂.world.store.domain_events_outbox.get? event.event_id =
            some { event with status := status, published_at := published_at } := by
          rw [hstore₂]
          exact hstored
        refine (meets_in_store (mark_outbox_event_published.spec hstored₂ rfl)).bind ?_ ?_
        · rintro marked s₃ ⟨⟨-, hdraws₃, hstore₃⟩, hqueue₃⟩
          rw [meets_pure]
          rw [hstore₂, hstore₁] at hstore₃
          refine ⟨⟨_, rfl⟩, .inr ⟨by omega, ⟨record, _, hstore₃⟩, msg, ?_, fun key => ?_⟩⟩
          · refine ⟨htenant, hqueue_name, ?_, n, by omega, hdue⟩
            unfold job_id_of
            rw [hmsg, hjob_id]
            simp [PyVal.or, PyVal.truthy, PyVal.toStr, hjob]
          · rw [hqueue₃, hqueue₂, hdeque, htenant, hqueue_name]
        · rintro e s₃ ⟨⟨⟨a, he⟩, -⟩, -⟩
          cases he
      · rintro e s₂ ⟨⟨⟨a, he⟩, -⟩, -⟩
        cases he
    · rintro e s₁ ⟨-, -, msg, he, -⟩
      cases he

end bid_evaluation.delivery
