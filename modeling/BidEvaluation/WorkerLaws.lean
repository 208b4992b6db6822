-- The laws of message handling. The worker and the drain route run the same
-- protocol, but only the worker catches what a run raises: it then acks the
-- message, whatever the job is left in, and the route leaves the message in
-- flight.
import BidEvaluation.Service
import BidEvaluation.ReviewLaws

open dict_lib stepwise bid_evaluation.values bid_evaluation.core bid_evaluation.store_admin
  bid_evaluation.job_run bid_evaluation.operations bid_evaluation.frames
  bid_evaluation.job_steps bid_evaluation.run_steps bid_evaluation.job_laws
  bid_evaluation.endings bid_evaluation.review_laws bid_evaluation.queue_backend
  bid_evaluation.service

namespace bid_evaluation.worker_laws

variable {env : Env} {s t : Service}

/-! ## Calls -/

/-- The instant that a call reads next. -/
def now (env : Env) (s : Service) : Int := env.clock s.world.draws

def ticked (s : Service) : Service :=
  { s with world := { s.world with draws := s.world.draws + 1 } }

@[simp] theorem ticked_queue : (ticked s).queue = s.queue := rfl

theorem result_with_now (f : Int → Call α) :
    (in_store (utcnow env) >>= f).result s = (f (now env s)).result (ticked s) := by
  rw [result_bind (a := now env s) rfl, final_in_store]
  rfl

theorem final_with_now (f : Int → Call α) :
    (in_store (utcnow env) >>= f).final s = (f (now env s)).final (ticked s) := by
  rw [final_bind (a := now env s) rfl, final_in_store]
  rfl

/-! ## One message out of the queue -/

/-- The call takes this message and leaves the service in this state. -/
structure Takes (env : Env) (tenant_id queue_name : String) (s : Service) (msg : QueueMessage)
    (t : Service) : Prop where
  result : (dequeue_message env tenant_id queue_name).result s = .ok (some msg)
  final : (dequeue_message env tenant_id queue_name).final s = t

theorem dequeue_inflight (q : InMemoryQueueBackend) (due : Int) (tenant_id queue_name : String) :
    match dequeue q due tenant_id queue_name with
    | (q', none) => q'.inflight = q.inflight
    | (q', some msg) => q'.inflight = Function.update q.inflight msg.message_id (some msg) := by
  obtain ⟨left, ⟨hdequeue, -⟩ | ⟨msg, hdequeue, -⟩⟩ := dequeue.spec q due tenant_id queue_name
  · rw [hdequeue]
  · rw [hdequeue]

theorem Takes.inflight {tenant_id queue_name : String} {msg : QueueMessage}
    (h : Takes env tenant_id queue_name s msg t) :
    t.queue.inflight = Function.update s.queue.inflight msg.message_id (some msg) := by
  have hresult := h.result
  have hfinal := h.final
  unfold dequeue_message at hresult hfinal
  rw [result_with_now, result_in_queue] at hresult
  rw [final_with_now, final_in_queue] at hfinal
  have hdequeue := dequeue_inflight (ticked s).queue (now env s) tenant_id queue_name
  cases hresult' : dequeue (ticked s).queue (now env s) tenant_id queue_name with
  | mk q' taken =>
    rw [hresult'] at hdequeue hresult hfinal
    cases hresult
    rw [← hfinal]
    exact hdequeue

/-! ## A message that is in flight -/

/-- How a call deals with a message in flight: it takes one of its own
tenant out, and raises on a foreign one. -/
structure Clears (m : Call α) (tenant_id : String) (msg : QueueMessage) (s : Service) : Prop where
  own : msg.tenant_id = tenant_id → ∃ a, m.result s = .ok a
  out : msg.tenant_id = tenant_id → (m.final s).queue.inflight msg.message_id = none
  foreign : msg.tenant_id ≠ tenant_id → ∃ e, m.result s = .error e
  kept : msg.tenant_id ≠ tenant_id → (m.final s).queue.inflight = s.queue.inflight
  others : ∀ id, id ≠ msg.message_id →
    (m.final s).queue.inflight id = s.queue.inflight id

theorem Clears.then_pure {m : Call α} {tenant_id : String} {msg : QueueMessage} (g : α → β)
    (h : Clears m tenant_id msg s) : Clears (m >>= fun a => pure (g a)) tenant_id msg s := by
  refine ⟨fun hown => ?_, ?_, fun hforeign => ?_, ?_, ?_⟩
  · obtain ⟨a, ha⟩ := h.own hown
    exact ⟨g a, result_bind ha⟩
  · rw [final_bind_pure]
    exact h.out
  · obtain ⟨e, he⟩ := h.foreign hforeign
    exact ⟨e, result_bind_error he⟩
  · rw [final_bind_pure]
    exact h.kept
  · rw [final_bind_pure]
    exact h.others

theorem ack_clears {tenant_id : String} {msg : QueueMessage}
    (h : s.queue.inflight msg.message_id = some msg) :
    Clears (ack_message tenant_id msg.message_id) tenant_id msg s := by
  unfold ack_message
  by_cases hown : msg.tenant_id = tenant_id
  · refine ⟨fun _ => ⟨(), ?_⟩, fun _ => ?_, fun hno => absurd hown hno, fun hno => absurd hown hno,
      fun id hid => ?_⟩
    · simp [queue_backend.ack, h, hown]
    · simp [queue_backend.ack, h, hown]
    · simp [queue_backend.ack, h, hown, hid]
  · refine ⟨fun hyes => absurd hyes hown, fun hyes => absurd hyes hown,
      fun _ => ⟨tenant_mismatch, ?_⟩, fun _ => ?_, fun id hid => ?_⟩
    · simp [queue_backend.ack, h, hown]
    · simp [queue_backend.ack, h, hown]
    · simp [queue_backend.ack, h, hown]

theorem nack_foreign {q : InMemoryQueueBackend} {msg : QueueMessage} {tenant_id : String}
    (due : Int) (requeue : Bool) (delay_ms : Int) (h : q.inflight msg.message_id = some msg)
    (hforeign : msg.tenant_id ≠ tenant_id) :
    nack q due tenant_id msg.message_id requeue delay_ms = (q, .error tenant_mismatch) := by
  unfold nack
  rw [h]
  dsimp only
  rw [if_pos hforeign, update_back h]

theorem nack_clears {tenant_id : String} {msg : QueueMessage} (requeue : Bool) (delay_ms : Int)
    (h : s.queue.inflight msg.message_id = some msg) :
    Clears (nack_message env tenant_id msg.message_id requeue delay_ms) tenant_id msg s := by
  unfold nack_message
  by_cases hown : msg.tenant_id = tenant_id
  · refine ⟨fun _ => ?_, fun _ => ?_, fun hno => absurd hown hno, fun hno => absurd hown hno,
      fun id hid => ?_⟩
    · rw [result_with_now]
      cases requeue <;> simp [nack, h, hown]
    · rw [final_with_now]
      cases requeue <;> simp [nack, h, hown]
    · rw [final_with_now]
      cases requeue <;> simp [nack, h, hown, hid]
  · refine ⟨fun hyes => absurd hyes hown, fun hyes => absurd hyes hown,
      fun _ => ⟨tenant_mismatch, ?_⟩, fun _ => ?_, fun id hid => ?_⟩
    · rw [result_with_now, result_in_queue, ticked_queue, nack_foreign _ _ _ h hown]
    · rw [final_with_now, final_in_queue, ticked_queue, nack_foreign _ _ _ h hown]
    · rw [final_with_now, final_in_queue, ticked_queue, nack_foreign _ _ _ h hown]

theorem settle_clears {tenant_id : String} {msg : QueueMessage} (result : RunResult)
    (h : s.queue.inflight msg.message_id = some msg) :
    Clears (settle env tenant_id msg result) tenant_id msg s := by
  unfold settle
  split
  · exact (nack_clears true _ h).then_pure fun _ => ()
  · exact ack_clears h

/-! ## The worker and the route -/

/-- The message names no job, or the run of its job returns. -/
def Runs (env : Env) (run_job_once : Runner) (tenant_id : String) (msg : QueueMessage)
    (s : Service) : Prop :=
  job_id_of env msg = "" ∨
    ∃ result, (run_job_once (job_id_of env msg) tenant_id).result s.world = .ok result

/-- The service after the run of a job. -/
def afterRun (env : Env) (run_job_once : Runner) (tenant_id : String) (msg : QueueMessage)
    (s : Service) : Service :=
  { s with world := (run_job_once (job_id_of env msg) tenant_id).final s.world }

theorem handle_no_job {run_job_once : Runner} {tenant_id : String} {msg : QueueMessage}
    (stats : WorkerRunStats) (hno : job_id_of env msg = "") :
    (handle_message env run_job_once tenant_id stats msg).final s =
      (ack_message tenant_id msg.message_id).final s := by
  unfold handle_message
  rw [if_pos hno]
  exact final_bind_pure _

theorem handle_raised {run_job_once : Runner} {tenant_id : String} {msg : QueueMessage} {e : PyErr}
    (stats : WorkerRunStats) (hjob : job_id_of env msg ≠ "")
    (hrun : (run_job_once (job_id_of env msg) tenant_id).result s.world = .error e) :
    (handle_message env run_job_once tenant_id stats msg).final s =
      (ack_message tenant_id msg.message_id).final (afterRun env run_job_once tenant_id msg s) := by
  unfold handle_message
  rw [if_neg hjob, final_bind (a := .error e), final_attempt, final_in_store]
  · exact final_bind_pure _
  · rw [result_attempt, result_in_store, hrun]

theorem handle_returned {run_job_once : Runner} {tenant_id : String} {msg : QueueMessage}
    {result : RunResult} (stats : WorkerRunStats) (hjob : job_id_of env msg ≠ "")
    (hrun : (run_job_once (job_id_of env msg) tenant_id).result s.world = .ok result) :
    (handle_message env run_job_once tenant_id stats msg).final s =
      (settle env tenant_id msg result).final (afterRun env run_job_once tenant_id msg s) := by
  unfold handle_message
  rw [if_neg hjob, final_bind (a := .ok result), final_attempt, final_in_store]
  · exact final_bind_pure _
  · rw [result_attempt, result_in_store, hrun]

/-- A round of the route, by the kind of its message: the call that ends it,
and the service in which that call is made. -/
theorem drain_no_job (run_job_once : Runner) {tenant_id : String} {msg : QueueMessage}
    (data : DrainData) (h : s.queue.inflight msg.message_id = some msg)
    (hno : job_id_of env msg = "") :
    Clears (drain_message env run_job_once tenant_id data msg) tenant_id msg s ∧
      (drain_message env run_job_once tenant_id data msg).final s =
        (ack_message tenant_id msg.message_id).final s := by
  unfold drain_message
  rw [if_pos hno]
  exact ⟨(ack_clears h).then_pure _, final_bind_pure _⟩

theorem Clears.after_run {m : Call α} {run : Act β} {f : β → Call α} {tenant_id : String}
    {msg : QueueMessage} {b : β} (hrun : run.result s.world = .ok b)
    (h : Clears (f b) tenant_id msg { s with world := run.final s.world })
    (hm : m = in_store run >>= f) : Clears m tenant_id msg s := by
  have hresult : m.result s = (f b).result { s with world := run.final s.world } := by
    have hstore : (in_store run).result s = .ok b := hrun
    rw [hm, result_bind hstore, final_in_store]
  have hfinal : m.final s = (f b).final { s with world := run.final s.world } := by
    have hstore : (in_store run).result s = .ok b := hrun
    rw [hm, final_bind hstore, final_in_store]
  refine ⟨?_, ?_, ?_, ?_, ?_⟩
  · rw [hresult]
    exact h.own
  · rw [hfinal]
    exact h.out
  · rw [hresult]
    exact h.foreign
  · rw [hfinal]
    exact h.kept
  · rw [hfinal]
    exact h.others

theorem drain_returned {run_job_once : Runner} {tenant_id : String} {msg : QueueMessage}
    {result : RunResult} (data : DrainData) (h : s.queue.inflight msg.message_id = some msg)
    (hjob : job_id_of env msg ≠ "")
    (hrun : (run_job_once (job_id_of env msg) tenant_id).result s.world = .ok result) :
    Clears (drain_message env run_job_once tenant_id data msg) tenant_id msg s ∧
      (drain_message env run_job_once tenant_id data msg).final s =
        (settle env tenant_id msg result).final (afterRun env run_job_once tenant_id msg s) := by
  have hafter : (afterRun env run_job_once tenant_id msg s).queue.inflight msg.message_id =
      some msg := h
  unfold drain_message
  rw [if_neg hjob]
  constructor
  · exact Clears.after_run hrun ((settle_clears result hafter).then_pure _) rfl
  · have hstore : (in_store (run_job_once (job_id_of env msg) tenant_id)).result s = .ok result :=
      hrun
    rw [final_bind hstore, final_in_store]
    exact final_bind_pure _

theorem drain_raised {run_job_once : Runner} {tenant_id : String} {msg : QueueMessage} {e : PyErr}
    (data : DrainData) (hjob : job_id_of env msg ≠ "")
    (hrun : (run_job_once (job_id_of env msg) tenant_id).result s.world = .error e) :
    (drain_message env run_job_once tenant_id data msg).result s = .error e ∧
      ((drain_message env run_job_once tenant_id data msg).final s).queue = s.queue := by
  have hstore : (in_store (run_job_once (job_id_of env msg) tenant_id)).result s = .error e := hrun
  unfold drain_message
  rw [if_neg hjob]
  constructor
  · exact result_bind_error hstore
  · rw [final_bind_error hstore, final_in_store]

/-! ## Both in the same state -/

/-- Whatever message comes next, the worker and the route leave the service
the same, and the message is not in flight. -/
def SameDisposition (env : Env) (run_job_once : Runner) (tenant_id queue_name : String)
    (s : Service) : Prop :=
  ∀ msg t, Takes env tenant_id queue_name s msg t → ∀ stats data,
    (handle_message env run_job_once tenant_id stats msg).final t =
      (drain_message env run_job_once tenant_id data msg).final t ∧
    ((drain_message env run_job_once tenant_id data msg).final t).queue.inflight msg.message_id =
      none

/-- Whatever message comes next, it belongs to the tenant and its run
returns. -/
def Disposable (env : Env) (run_job_once : Runner) (tenant_id queue_name : String)
    (s : Service) : Prop :=
  ∀ msg t, Takes env tenant_id queue_name s msg t →
    msg.tenant_id = tenant_id ∧ Runs env run_job_once tenant_id msg t

theorem Takes.has {tenant_id queue_name : String} {msg : QueueMessage}
    (h : Takes env tenant_id queue_name s msg t) :
    t.queue.inflight msg.message_id = some msg := by
  rw [h.inflight, Function.update_self]

/-- A run that returns ends the route's round as it ends the worker's. -/
theorem drain_runs {run_job_once : Runner} {tenant_id : String} {msg : QueueMessage}
    (stats : WorkerRunStats) (data : DrainData) (h : s.queue.inflight msg.message_id = some msg)
    (hruns : Runs env run_job_once tenant_id msg s) :
    Clears (drain_message env run_job_once tenant_id data msg) tenant_id msg s ∧
      (handle_message env run_job_once tenant_id stats msg).final s =
        (drain_message env run_job_once tenant_id data msg).final s := by
  by_cases hjob : job_id_of env msg = ""
  · obtain ⟨hclears, hfinal⟩ := drain_no_job run_job_once data h hjob
    rw [handle_no_job stats hjob, hfinal]
    exact ⟨hclears, rfl⟩
  · obtain ⟨result, hrun⟩ := hruns.resolve_left hjob
    obtain ⟨hclears, hfinal⟩ := drain_returned data h hjob hrun
    rw [handle_returned stats hjob hrun, hfinal]
    exact ⟨hclears, rfl⟩

theorem same_disposition_iff {run_job_once : Runner} {tenant_id queue_name : String} :
    SameDisposition env run_job_once tenant_id queue_name s ↔
      Disposable env run_job_once tenant_id queue_name s := by
  constructor
  · intro h msg t htakes
    have hin := htakes.has
    obtain ⟨-, hout⟩ := h msg t htakes WorkerRunStats.zero DrainData.zero
    have hruns : Runs env run_job_once tenant_id msg t := by
      by_cases hjob : job_id_of env msg = ""
      · exact .inl hjob
      · right
        rcases hrun : (run_job_once (job_id_of env msg) tenant_id).result t.world with e | result
        · rw [(drain_raised DrainData.zero hjob hrun).2, hin] at hout
          cases hout
        · exact ⟨result, rfl⟩
    refine ⟨?_, hruns⟩
    by_contra hforeign
    have hclears := (drain_runs WorkerRunStats.zero DrainData.zero hin hruns).1
    rw [hclears.kept hforeign, hin] at hout
    cases hout
  · intro h msg t htakes stats data
    obtain ⟨hown, hruns⟩ := h msg t htakes
    obtain ⟨hclears, hsame⟩ := drain_runs stats data htakes.has hruns
    exact ⟨hsame, hclears.out hown⟩

/-! ## A whole call of the route -/

/-- The service in which some round of the call starts. -/
inductive InBatch (env : Env) (run_job_once : Runner) (tenant_id queue_name : String) :
    Nat → DrainData → Service → Service → Prop where
  | here (left : Nat) (data : DrainData) (s : Service) :
      InBatch env run_job_once tenant_id queue_name (left + 1) data s s
  | later {left : Nat} {data data' : DrainData} {s t r : Service} {msg : QueueMessage}
      (htakes : Takes env tenant_id queue_name s msg t)
      (hround : (drain_message env run_job_once tenant_id data msg).result t = .ok data')
      (h : InBatch env run_job_once tenant_id queue_name left data'
        ((drain_message env run_job_once tenant_id data msg).final t) r) :
      InBatch env run_job_once tenant_id queue_name (left + 1) data s r

/-- At the end of the call no message that it took is in flight. -/
def NoneLeft (env : Env) (run_job_once : Runner) (tenant_id queue_name : String) (left : Nat)
    (data : DrainData) (s : Service) : Prop :=
  ∀ r, InBatch env run_job_once tenant_id queue_name left data s r →
    ∀ msg t, Takes env tenant_id queue_name r msg t →
      ((drain_once env run_job_once tenant_id queue_name left data).final s).queue.inflight
        msg.message_id = none

theorem Takes.unique {tenant_id queue_name : String} {msg msg' : QueueMessage} {t' : Service}
    (h : Takes env tenant_id queue_name s msg t) (h' : Takes env tenant_id queue_name s msg' t') :
    msg' = msg ∧ t' = t := by
  have hresult := h'.result
  rw [h.result] at hresult
  cases hresult
  exact ⟨rfl, h'.final.symm.trans h.final⟩

theorem idle_inflight {tenant_id queue_name : String}
    (h : (dequeue_message env tenant_id queue_name).result s = .ok none) :
    ((dequeue_message env tenant_id queue_name).final s).queue.inflight = s.queue.inflight := by
  unfold dequeue_message at h ⊢
  rw [result_with_now, result_in_queue] at h
  rw [final_with_now, final_in_queue]
  have hdequeue := dequeue_inflight (ticked s).queue (now env s) tenant_id queue_name
  cases hresult : dequeue (ticked s).queue (now env s) tenant_id queue_name with
  | mk q' taken =>
    rw [hresult] at hdequeue h
    cases h
    exact hdequeue

theorem dequeue_returns (env : Env) (tenant_id queue_name : String) (s : Service) :
    ∃ msg, (dequeue_message env tenant_id queue_name).result s = .ok msg := by
  unfold dequeue_message
  rw [result_with_now, result_in_queue]
  exact ⟨_, rfl⟩

/-- Induction on the rounds. A round leaves its message out of flight and
every other message as it was. -/
theorem drained_out {run_job_once : Runner} {tenant_id queue_name : String} (left : Nat)
    (data : DrainData) (s : Service)
    (h : ∀ r, InBatch env run_job_once tenant_id queue_name left data s r →
      Disposable env run_job_once tenant_id queue_name r) :
    (∀ id, ((drain_once env run_job_once tenant_id queue_name left data).final s).queue.inflight
        id = none ∨
      ((drain_once env run_job_once tenant_id queue_name left data).final s).queue.inflight id =
        s.queue.inflight id) ∧
      NoneLeft env run_job_once tenant_id queue_name left data s := by
  induction left generalizing data s with
  | zero =>
    refine ⟨fun id => .inr rfl, ?_⟩
    intro r hr
    cases hr
  | succ left ih =>
    obtain ⟨taken, hresult⟩ := dequeue_returns env tenant_id queue_name s
    cases taken with
    | none =>
      have hfinal : (drain_once env run_job_once tenant_id queue_name (left + 1) data).final s =
          (dequeue_message env tenant_id queue_name).final s := by
        unfold drain_once
        rw [final_bind hresult]
        rfl
      have hno : ∀ msg t, ¬ Takes env tenant_id queue_name s msg t := by
        intro msg t htakes
        have hsome := htakes.result
        rw [hresult] at hsome
        cases hsome
      rw [NoneLeft, hfinal]
      refine ⟨fun id => .inr (congrFun (idle_inflight hresult) id), ?_⟩
      intro r hr msg t htakes
      cases hr with
      | here => exact absurd htakes (hno msg t)
      | later htakes' => exact absurd htakes' (hno _ _)
    | some msg =>
      have htakes : Takes env tenant_id queue_name s msg _ := ⟨hresult, rfl⟩
      obtain ⟨hown, hruns⟩ := h s (.here left data s) msg _ htakes
      obtain ⟨hclears, -⟩ := drain_runs WorkerRunStats.zero data htakes.has hruns
      obtain ⟨data', hround⟩ := hclears.own hown
      have hfinal : (drain_once env run_job_once tenant_id queue_name (left + 1) data).final s =
          (drain_once env run_job_once tenant_id queue_name left data').final
            ((drain_message env run_job_once tenant_id data msg).final
              ((dequeue_message env tenant_id queue_name).final s)) := by
        rw [drain_once, final_bind hresult]
        exact final_bind hround
      obtain ⟨hids, hnone⟩ := ih data' _ fun r hr => h r (.later htakes hround hr)
      have hout := hclears.out hown
      rw [NoneLeft, hfinal]
      constructor
      · intro id
        rcases hids id with hid | hid
        · exact .inl hid
        · by_cases heq : id = msg.message_id
          · left
            rw [hid, heq, hout]
          · right
            rw [hid, hclears.others id heq, htakes.inflight, Function.update_of_ne heq]
      · intro r hr msg' t' htakes'
        cases hr with
        | here =>
          obtain ⟨rfl, -⟩ := htakes.unique htakes'
          rcases hids msg'.message_id with hid | hid
          · exact hid
          · rw [hid, hout]
        | later htakes'' hround' hr' =>
          obtain ⟨rfl, rfl⟩ := htakes.unique htakes''
          rw [hround] at hround'
          cases hround'
          exact hnone r hr' msg' t' htakes'

/-! ## The job of a message -/

/-- The job is at its end, or a person has to decide. -/
def Settled (status : JobStatus) : Prop := Terminal status ∨ status = .needs_manual_decision

/-- The message is at the front of its own deque again. -/
def BackInQueue (s t : Service) (msg : QueueMessage) : Prop :=
  ∃ m, m.message_id = msg.message_id ∧
    t.queue.deque (queue_key msg.tenant_id msg.queue_name) =
      m :: s.queue.deque (queue_key msg.tenant_id msg.queue_name)

/-- The message is back in the queue, or the job it names is settled. -/
def NoWorkLost (env : Env) (msg : QueueMessage) (s t : Service) : Prop :=
  job_id_of env msg = "" ∨ BackInQueue s t msg ∨
    ∀ job, t.world.store.jobs.get? (job_id_of env msg) = some job → Settled job.status

/-- What makes the job of a message settled. A run that starts has to return,
but for the job types that succeed before they do their work. A job that
does not start has to be settled already. -/
structure WillSettle (env : Env) (tenant_id : String) (w : World) (job : Job) : Prop where
  started : Visible w job (some tenant_id) → Startable job.status →
    (job.job_type ≠ .evaluation ∧ job.job_type ≠ .resume) ∨
      ∃ result, (worker_runner env job.job_id tenant_id).result w = .ok result
  refused : ¬ (Visible w job (some tenant_id) ∧ Startable job.status) → Settled job.status

theorem missing_run.spec {job_id : String} {w : World} (env : Env) (tenant_id : String)
    (flags : RunFlags) (hnone : w.store.jobs.get? job_id = none) :
    Meets AnyStep (run_job_once env job_id tenant_id flags) w (fun r w' =>
      (∃ e, r = .error e) ∧ w' = w) := by
  have hspec : Meets AnyStep (require_job job_id (some tenant_id)) w _ :=
    require_job.spec w job_id (some tenant_id)
  have hbegin : Meets AnyStep (begin_run env job_id tenant_id) w (fun r w' =>
      (∃ e, r = .error e) ∧ w' = w) := by
    unfold begin_run
    refine hspec.bind ?_ ?_
    · intro job t h
      obtain ⟨hid, hv⟩ := (h.2 job).1 rfl
      have hstored := hv.stored
      rw [Stored, hid, hnone] at hstored
      cases hstored
    · intro e t h
      exact ⟨⟨e, rfl⟩, h.1⟩
  unfold run_job_once
  refine any_saving (hbegin.bind ?_ ?_) ?_
  · intro job t h
    obtain ⟨⟨e, he⟩, -⟩ := h
    cases he
  · intro e t h
    exact ⟨⟨e, rfl⟩, h.2⟩
  · intro result t t' h
    obtain ⟨⟨e, he⟩, -⟩ := h
    cases he

/-- How a run without flags leaves its job. -/
def PlainEnd (w w' : World) (job : Job) (r : Except PyErr RunResult) : Prop :=
  ∃ job', Became runParts w w' job job' ∧
    match r with
    | .ok result => job'.status = result.final_status ∧ Settled job'.status
    | .error _ => job'.status = raised_status RunFlags.default job.job_type

theorem settled_succeeded : Settled .succeeded := .inl (.inl rfl)

theorem plain_run_by_type.spec {job : Job} {tenant_id : String} {w : World} (env : Env)
    (hv : Visible w job (some tenant_id)) (hrunning : job.status = .running) :
    Meets AnyStep (run_by_type env job tenant_id) w (fun r w' => PlainEnd w w' job r) := by
  have hrun : Meets (Step env anyJob) (run_by_type env job tenant_id) w _ :=
    run_by_type.spec any_free (show (RunFlags.default.force_fail ||
      RunFlags.default.transient_fail) = false from rfl) hv hrunning
  apply (meets_any hrun).post
  rintro r w' ⟨hends, hsettled⟩
  cases r with
  | error e => exact hends
  | ok result =>
    obtain ⟨job', hb, hstatus, -⟩ := hends
    refine ⟨job', hb, hstatus, ?_⟩
    rw [hstatus]
    rcases hsettled result rfl with heq | heq
    · rw [heq]
      exact settled_succeeded
    · exact .inr heq

/-- A run of the worker that starts. -/
theorem plain_run.spec {job : Job} {tenant_id : String} {w : World} (env : Env)
    (hv : Visible w job (some tenant_id)) (hstart : Startable job.status) :
    Meets AnyStep (worker_runner env job.job_id tenant_id) w (fun r w' =>
      PlainEnd w w' job r) := by
  have hspec : Meets (Step env anyJob) (begin_run env job.job_id tenant_id) w _ :=
    begin_run.spec any_free w job.job_id tenant_id
  unfold worker_runner run_job_once
  refine any_saving ((meets_any hspec).bind ?_ ?_) ?_
  · intro job' t h
    obtain ⟨-, found, hid, hfound, -, hb, hrunning, -⟩ := h
    cases hv.stored.unique hfound.stored hid
    have hrun := plain_run_by_type.spec env (hb.visible hv) hrunning
    apply hrun.post
    intro r w' hends
    obtain ⟨last, hlast, hr⟩ := hends
    rw [hb.same.job_type] at hr
    exact ⟨last, (hb.widen (by decide)).trans hlast, hr⟩
  · intro e t h
    exact absurd hstart ((h.2 job rfl hv.stored).2 hv)
  · intro result t t' h hf
    obtain ⟨last, hlast, hr⟩ := h
    exact ⟨last, hlast.later hf (by simp) (by simp), hr⟩

/-- A round of the worker ends in an ack, unless the run asks for a retry. -/
theorem handle_acks {run_job_once : Runner} {tenant_id : String} {msg : QueueMessage}
    (stats : WorkerRunStats) (hjob : job_id_of env msg ≠ "")
    (hno : ∀ result, (run_job_once (job_id_of env msg) tenant_id).result s.world = .ok result →
      result.final_status ≠ .retrying) :
    (handle_message env run_job_once tenant_id stats msg).final s =
      (ack_message tenant_id msg.message_id).final (afterRun env run_job_once tenant_id msg s) := by
  rcases hrun : (run_job_once (job_id_of env msg) tenant_id).result s.world with e | result
  · exact handle_raised stats hjob hrun
  · rw [handle_returned stats hjob hrun]
    unfold settle
    rw [if_neg (hno result hrun)]

theorem ack_keeps (tenant_id message_id : String) (s : Service) :
    ((ack_message tenant_id message_id).final s).world = s.world ∧
      ∀ key, ((ack_message tenant_id message_id).final s).queue.deque key =
        s.queue.deque key := by
  unfold ack_message
  rw [final_in_queue]
  refine ⟨rfl, ?_⟩
  intro key
  unfold queue_backend.ack
  split
  · rfl
  · split <;> rfl

/-- The worker never puts a message back, so the job has to be settled. -/
theorem acked_work_is_kept_iff {tenant_id : String} {msg : QueueMessage} (stats : WorkerRunStats)
    (hjob : job_id_of env msg ≠ "")
    (hno : ∀ result, (worker_runner env (job_id_of env msg) tenant_id).result s.world =
      .ok result → result.final_status ≠ .retrying) :
    NoWorkLost env msg s ((handle_message env (worker_runner env) tenant_id stats msg).final s) ↔
      ∀ job, ((worker_runner env (job_id_of env msg) tenant_id).final s.world).store.jobs.get?
        (job_id_of env msg) = some job → Settled job.status := by
  obtain ⟨hworld, hdeque⟩ := ack_keeps tenant_id msg.message_id
    (afterRun env (worker_runner env) tenant_id msg s)
  unfold NoWorkLost
  rw [handle_acks stats hjob hno, hworld]
  constructor
  · rintro (h | h | h)
    · exact absurd h hjob
    · obtain ⟨m, -, hm⟩ := h
      rw [hdeque] at hm
      have hlength := congrArg List.length hm
      simp [afterRun] at hlength
    · exact h
  · intro h
    exact .inr (.inr h)

/-- The same for a job that the run leaves in the store. -/
theorem kept_work_iff {tenant_id : String} {msg : QueueMessage} {job : Job}
    (stats : WorkerRunStats) (hjob : job_id_of env msg ≠ "") (hid : job.job_id = job_id_of env msg)
    (hstored : Stored ((worker_runner env job.job_id tenant_id).final s.world) job)
    (hno : ∀ result, (worker_runner env job.job_id tenant_id).result s.world = .ok result →
      result.final_status ≠ .retrying) :
    NoWorkLost env msg s ((handle_message env (worker_runner env) tenant_id stats msg).final s) ↔
      Settled job.status := by
  unfold Stored at hstored
  rw [hid] at hno hstored
  rw [acked_work_is_kept_iff stats hjob hno, hstored]
  constructor
  · intro h
    exact h job rfl
  · intro h found hfound
    cases hfound
    exact h

theorem refused_work_iff {tenant_id : String} {msg : QueueMessage} {job : Job}
    (stats : WorkerRunStats) (hjob : job_id_of env msg ≠ "") (hid : job.job_id = job_id_of env msg)
    (hstored : Stored s.world job)
    (hstart : ¬ (Visible s.world job (some tenant_id) ∧ Startable job.status)) :
    NoWorkLost env msg s ((handle_message env (worker_runner env) tenant_id stats msg).final s) ↔
      Settled job.status := by
  obtain ⟨⟨e, he⟩, job', hb, hstatus⟩ :=
    (not_started_run.spec env RunFlags.default hstored hstart).2
  have hsame := hb.same.job_id
  rw [← hstatus]
  apply kept_work_iff stats hjob (hsame.trans hid)
  · rw [hsame]
    exact hb.stored
  · intro result hr
    unfold worker_runner at hr
    rw [hsame, he] at hr
    cases hr

theorem started_work_iff {tenant_id : String} {msg : QueueMessage} {job : Job}
    (stats : WorkerRunStats) (hjob : job_id_of env msg ≠ "") (hid : job.job_id = job_id_of env msg)
    (hv : Visible s.world job (some tenant_id)) (hstart : Startable job.status) :
    NoWorkLost env msg s ((handle_message env (worker_runner env) tenant_id stats msg).final s) ↔
      (job.job_type ≠ .evaluation ∧ job.job_type ≠ .resume) ∨
        ∃ result, (worker_runner env job.job_id tenant_id).result s.world = .ok result := by
  obtain ⟨job', hb, hr⟩ := (plain_run.spec env hv hstart).2
  have hsame := hb.same.job_id
  rw [kept_work_iff stats hjob (hsame.trans hid) (by rw [hsame]; exact hb.stored)]
  · rcases hresult : (worker_runner env job.job_id tenant_id).result s.world with e | result
    · rw [hresult] at hr
      rw [hr]
      unfold raised_status
      cases job.job_type <;> simp [RunFlags.default, Settled, Terminal]
    · rw [hresult] at hr
      simp [hr.2]
  · intro result hresult
    rw [hsame] at hresult
    rw [hresult] at hr
    obtain ⟨hstatus, hsettled⟩ := hr
    intro hretrying
    rw [hstatus, hretrying] at hsettled
    simp [Settled, Terminal] at hsettled

theorem missing_work_is_kept {msg : QueueMessage} (tenant_id : String) (stats : WorkerRunStats)
    (hjob : job_id_of env msg ≠ "")
    (hnone : s.world.store.jobs.get? (job_id_of env msg) = none) :
    NoWorkLost env msg s
      ((handle_message env (worker_runner env) tenant_id stats msg).final s) := by
  obtain ⟨⟨e, he⟩, hw⟩ := (missing_run.spec env tenant_id RunFlags.default hnone).2
  rw [acked_work_is_kept_iff stats hjob]
  · intro job hfound
    unfold worker_runner at hfound
    rw [hw, hnone] at hfound
    cases hfound
  · intro result hr
    unfold worker_runner at hr
    rw [he] at hr
    cases hr

/-- A message whose job is going to be settled: it names none that is
stored, or one that will settle. -/
def WorkSettles (env : Env) (tenant_id : String) (msg : QueueMessage) (w : World) : Prop :=
  job_id_of env msg = "" ∨
    ∀ job, w.store.jobs.get? (job_id_of env msg) = some job → WillSettle env tenant_id w job

theorem no_work_lost_iff (stats : WorkerRunStats) (tenant_id : String) (msg : QueueMessage)
    (s : Service) :
    NoWorkLost env msg s ((handle_message env (worker_runner env) tenant_id stats msg).final s) ↔
      WorkSettles env tenant_id msg s.world := by
  unfold WorkSettles
  by_cases hjob : job_id_of env msg = ""
  · exact ⟨fun _ => .inl hjob, fun _ => .inl hjob⟩
  rcases hfound : s.world.store.jobs.get? (job_id_of env msg) with _ | job
  · have hkept := missing_work_is_kept tenant_id stats hjob hfound
    refine ⟨fun _ => .inr ?_, fun _ => hkept⟩
    intro job hsome
    cases hsome
  have hid : job.job_id = job_id_of env msg := Table.key_of_get? _ hfound
  have hstored : Stored s.world job := by
    unfold Stored
    rw [hid]
    exact hfound
  by_cases hstart : Visible s.world job (some tenant_id) ∧ Startable job.status
  · rw [started_work_iff stats hjob hid hstart.1 hstart.2]
    constructor
    · intro h
      right
      rintro found ⟨⟩
      exact ⟨fun _ _ => h, fun hno => absurd hstart hno⟩
    · intro h
      exact (h.resolve_left hjob job rfl).started hstart.1 hstart.2
  · rw [refused_work_iff stats hjob hid hstored hstart]
    constructor
    · intro h
      right
      rintro found ⟨⟩
      exact ⟨fun hv hs => absurd ⟨hv, hs⟩ hstart, fun _ => h⟩
    · intro h
      exact (h.resolve_left hjob job rfl).refused hstart

/-! ## The laws -/

/-- In every round of a call the route does with its message what the worker
would do, and the call leaves no message in flight, exactly when each
message it takes belongs to the tenant and has a run that returns. -/
theorem drain_agrees_with_worker_iff (env : Env) (run_job_once : Runner)
    (tenant_id queue_name : String) (max_messages : Nat) (data : DrainData) (s : Service) :
    ((∀ r, InBatch env run_job_once tenant_id queue_name max_messages data s r →
        SameDisposition env run_job_once tenant_id queue_name r) ∧
      NoneLeft env run_job_once tenant_id queue_name max_messages data s) ↔
    ∀ r, InBatch env run_job_once tenant_id queue_name max_messages data s r →
      Disposable env run_job_once tenant_id queue_name r := by
  constructor
  · intro h r hr
    exact same_disposition_iff.1 (h.1 r hr)
  · intro h
    exact ⟨fun r hr => same_disposition_iff.2 (h r hr), (drained_out max_messages data s h).2⟩

/-- A message of a job that the store does not have. -/
def stray_message : QueueMessage where
  message_id := "msg_a"
  tenant_id := "tenant"
  queue_name := "jobs"
  payload := [("job_id", .str "job_a")]
  attempt := 0
  available_at := some 0

/-- The message waits alone in the queue of the tenant. -/
def waiting (w : World) (msg : QueueMessage) : Service :=
  ⟨w, { new with queues := new.queues.set (queue_key "tenant" "jobs") [msg] }⟩

theorem takes_waiting {w : World} {msg : QueueMessage}
    (hdue : is_available (env.clock w.draws) msg = true) :
    ∃ t, Takes env "tenant" "jobs" (waiting w msg) msg t ∧
      t.world = (ticked (waiting w msg)).world := by
  have hqueue : (ticked (waiting w msg)).queue.deque (queue_key "tenant" "jobs") = [msg] := by
    simp [waiting]
  have hnow : is_available (now env (waiting w msg)) msg = true := hdue
  have hresult : (dequeue_message env "tenant" "jobs").result (waiting w msg) =
      .ok (some msg) := by
    unfold dequeue_message
    rw [result_with_now, result_in_queue]
    unfold dequeue
    simp only [hqueue, List.length_singleton, scan, hnow, if_true]
  refine ⟨_, ⟨hresult, rfl⟩, ?_⟩
  unfold dequeue_message
  rw [final_with_now, final_in_queue]

/-- The run of the job raises, and the route gives the error to its caller
with the message still in flight. The worker acks it. -/
theorem failed_run_is_left_in_flight :
    ¬ SameDisposition calm_env (drain_runner calm_env RunFlags.default) "tenant" "jobs"
        (waiting World.start stray_message) ∧
      ¬ NoneLeft calm_env (drain_runner calm_env RunFlags.default) "tenant" "jobs" 1
        DrainData.zero (waiting World.start stray_message) := by
  have hdue : is_available (calm_env.clock World.start.draws) stray_message = true := by decide
  obtain ⟨t, htakes, hworld⟩ := takes_waiting hdue
  have hjob : job_id_of calm_env stray_message = "job_a" := rfl
  have hin := htakes.has
  have hraises : ((drain_runner calm_env RunFlags.default "job_a" "tenant").result
      (ticked (waiting World.start stray_message)).world).isOk = false := by decide +kernel
  rw [← hjob, ← hworld] at hraises
  rcases hrun : (drain_runner calm_env RunFlags.default (job_id_of calm_env stray_message)
      "tenant").result t.world with e | result
  · obtain ⟨hround, hqueue⟩ := drain_raised DrainData.zero (by rw [hjob]; decide) hrun
    constructor
    · intro h
      obtain ⟨-, hout⟩ := h stray_message t htakes WorkerRunStats.zero DrainData.zero
      rw [hqueue, hin] at hout
      cases hout
    · intro h
      have hout := h _ (.here 0 DrainData.zero _) stray_message t htakes
      rw [drain_once, final_bind htakes.result, htakes.final, final_bind_error hround, hqueue,
        hin] at hout
      cases hout
  · rw [hrun] at hraises
    cases hraises

theorem process_takes {run_job_once : Runner} {tenant_id queue_name : String} {msg : QueueMessage}
    (stats : WorkerRunStats) (h : Takes env tenant_id queue_name s msg t) :
    (process_message env run_job_once queue_name tenant_id stats).final s =
      (handle_message env run_job_once tenant_id stats msg).final t := by
  unfold process_message
  rw [final_bind h.result, h.final]
  exact final_bind_pure _

/-- Whatever message the worker takes next, it is put back or its job is
settled, exactly when the message names no stored job or one that will
settle. -/
theorem worker_loses_no_work_iff (env : Env) (queue_name tenant_id : String)
    (stats : WorkerRunStats) (s : Service) :
    (∀ msg t, Takes env tenant_id queue_name s msg t →
      NoWorkLost env msg t
        ((process_message env (worker_runner env) queue_name tenant_id stats).final s)) ↔
    ∀ msg t, Takes env tenant_id queue_name s msg t →
      WorkSettles env tenant_id msg t.world := by
  constructor
  · intro h msg t htakes
    have hkept := h msg t htakes
    rw [process_takes stats htakes] at hkept
    exact (no_work_lost_iff stats tenant_id msg t).1 hkept
  · intro h msg t htakes
    rw [process_takes stats htakes]
    exact (no_work_lost_iff stats tenant_id msg t).2 (h msg t htakes)

/-- LangGraph raises, and nothing takes over from it. -/
def strict_env : Env :=
  { calm_env with
    true_stack_required := true
    graph_fault := fun _ => some (.raised "RuntimeError" "checkpointer is down") }

/-- The run of the bid raises. Its message is acked, and its job stays in
`running`. -/
theorem raised_run_is_acked :
    ¬ ∀ msg t, Takes strict_env "tenant" "jobs" (waiting (registered strict_env) stray_message)
        msg t →
      NoWorkLost strict_env msg t ((process_message strict_env (worker_runner strict_env) "jobs"
        "tenant" WorkerRunStats.zero).final (waiting (registered strict_env) stray_message)) := by
  intro h
  have hdue : is_available (strict_env.clock (registered strict_env).draws) stray_message =
      true := by decide +kernel
  obtain ⟨t, htakes, hworld⟩ := takes_waiting hdue
  have hkept := h stray_message t htakes
  rw [process_takes _ htakes] at hkept
  have hwill := ((no_work_lost_iff _ _ _ _).1 hkept).resolve_left (by decide)
  have hfound : (t.world.store.jobs.get? "job_a").map (fun job =>
      (job.job_type, job.tenant_id, job.status)) = some (.evaluation, "tenant", .queued) := by
    rw [hworld]
    decide +kernel
  have hraises : ((worker_runner strict_env "job_a" "tenant").result t.world).isOk = false := by
    rw [hworld]
    decide +kernel
  obtain ⟨job, hjob, hparts⟩ := Option.map_eq_some_iff.1 hfound
  simp only [Prod.mk.injEq] at hparts
  obtain ⟨htype, htenant, hstatus⟩ := hparts
  have hid : job.job_id = "job_a" := Table.key_of_get? _ hjob
  have hv : Visible t.world job (some "tenant") := by
    refine ⟨by rw [Stored, hid]; exact hjob, ?_⟩
    rintro tenant_id ⟨⟩
    exact htenant
  rcases (hwill job hjob).started hv (.inl (by rw [hstatus]; rfl)) with ⟨hno, -⟩ | ⟨result, hr⟩
  · exact hno htype
  · rw [hid] at hr
    rw [hr] at hraises
    cases hraises

end bid_evaluation.worker_laws
