-- The law of an iteration of the worker: it ends, its counters agree, no
-- message that it took is in flight, and it is fair to the tenants. The queue
-- may be refilled by each message that it takes.
import BidEvaluation.Endings
import BidEvaluation.KeyLaws
import BidEvaluation.WorkerRuntime

open dict_lib stepwise bid_evaluation.values bid_evaluation.core bid_evaluation.queue_backend
  bid_evaluation.service bid_evaluation.worker_runtime
open bid_evaluation.endings (AnyStep)
open bid_evaluation.store_admin (RunResult)
open bid_evaluation.operations (calm_env)
open bid_evaluation.key_laws (Unambiguous unambiguous_of_plain queue_key_eq key_of_eq_iff
  dequeue_cases mem_deque_iff mem_deque_set)

namespace bid_evaluation.iteration_laws

variable {env : Env} {rt : WorkerRuntime} {run_job_once : Runner} {s : Service}
  {q q' : InMemoryQueueBackend} {msg : QueueMessage} {it : Iteration}

/-! ## Calls -/

theorem meets_in_queue {f : InMemoryQueueBackend → InMemoryQueueBackend × Except PyErr α}
    {Q : Except PyErr α → Service → Prop} :
    Meets AnyStep (in_queue f) s Q ↔ Q (f s.queue).2 { s with queue := (f s.queue).1 } := by
  unfold Meets
  rw [result_in_queue, final_in_queue]
  exact ⟨fun h => h.2, fun h => ⟨keeps_true _ _, h⟩⟩

theorem meets_run {m : Act α} {Q : Except PyErr α → Service → Prop} :
    Meets AnyStep (in_store m) s Q ↔ Q (m.result s.world) { s with world := m.final s.world } := by
  unfold Meets
  rw [result_in_store, final_in_store]
  exact ⟨fun h => h.2, fun h => ⟨keeps_true _ _, h⟩⟩

/-- Read the clock, then go on. -/
theorem past_now {f : Int → Call α} {Q : Except PyErr α → Service → Prop}
    (h : ∀ now w, Meets AnyStep (f now) { s with world := w } Q) :
    Meets AnyStep (in_store (utcnow env) >>= f) s Q := by
  rw [meets_bind, meets_run]
  exact h (env.clock s.world.draws) _

/-! ## One message -/

/-- The message is out of flight and the others are where they were. It may
stand under its own key again. -/
structure Dealt (msg : QueueMessage) (q q' : InMemoryQueueBackend) : Prop where
  out : q'.inflight msg.message_id = none
  others : ∀ id, id ≠ msg.message_id → q'.inflight id = q.inflight id
  pending : ∀ key m, m ∈ q'.deque key → m ∈ q.deque key ∨ key = queue_key m.tenant_id m.queue_name ∧
    m.tenant_id = msg.tenant_id ∧ m.queue_name = msg.queue_name

theorem ack_deals (h : q.inflight msg.message_id = some msg) :
    (queue_backend.ack q msg.tenant_id msg.message_id).2 = .ok () ∧
      Dealt msg q (queue_backend.ack q msg.tenant_id msg.message_id).1 := by
  have hack : queue_backend.ack q msg.tenant_id msg.message_id =
      ({ q with inflight := Function.update q.inflight msg.message_id none }, .ok ()) := by
    simp [queue_backend.ack, h]
  rw [hack]
  refine ⟨rfl, ⟨?_, fun id hid => ?_, fun key m hm => .inl hm⟩⟩
  · simp
  · simp [hid]

theorem nack_deals (now : Int) (delay_ms : Int) (h : q.inflight msg.message_id = some msg) :
    (∃ back, (nack q now msg.tenant_id msg.message_id true delay_ms).2 = .ok back) ∧
      Dealt msg q (nack q now msg.tenant_id msg.message_id true delay_ms).1 := by
  unfold nack
  rw [h]
  dsimp only
  rw [if_neg (not_not.2 rfl), if_pos rfl]
  refine ⟨⟨_, rfl⟩, ⟨?_, fun id hid => ?_, fun key m hm => ?_⟩⟩
  · simp
  · simp [hid]
  · have hcases : _ ∨ m ∈ InMemoryQueueBackend.deque ⟨q.queues, q.inflight⟩ key := mem_deque_set hm
    rcases hcases with ⟨hkey, hin⟩ | hin
    · rcases List.mem_cons.1 hin with rfl | hin
      · exact .inr ⟨hkey, rfl, rfl⟩
      · exact .inl (hkey ▸ hin)
    · exact .inl hin

theorem settle.deals (result : RunResult) (h : s.queue.inflight msg.message_id = some msg) :
    Meets AnyStep (settle env msg.tenant_id msg result) s (fun r s' =>
      (∃ u, r = .ok u) ∧ Dealt msg s.queue s'.queue) := by
  unfold settle
  rw [meets_ite]
  constructor
  · intro _
    dsimp only
    unfold nack_message
    rw [then_assoc]
    refine past_now fun now w => ?_
    obtain ⟨⟨back, hok⟩, hdealt⟩ := nack_deals now (max 0 (result.retry_after_ms.getD 0 : Nat)) h
    rw [meets_bind, meets_in_queue]
    dsimp only
    rw [hok, then_ok, meets_pure]
    exact ⟨⟨(), rfl⟩, hdealt⟩
  · intro _
    rw [ack_message, meets_in_queue]
    obtain ⟨hok, hdealt⟩ := ack_deals h
    exact ⟨⟨(), hok⟩, hdealt⟩

/-- One more message, and one more that was acked or requeued. -/
structure OneCounted (stats stats' : WorkerRunStats) : Prop where
  processed : stats'.processed = stats.processed + 1
  ended : stats'.acked + stats'.requeued = stats.acked + stats.requeued + 1

theorem count_one (stats : WorkerRunStats) (result : RunResult) :
    OneCounted stats ({ stats with processed := stats.processed + 1 }.count result) := by
  unfold WorkerRunStats.count
  split
  · constructor
    · rfl
    · dsimp only
      omega
  · split
    · constructor
      · rfl
      · dsimp only
        omega
    · constructor
      · rfl
      · dsimp only
        omega

/-- Whatever the run of the job does, its message is dealt with and counted. -/
theorem handle_message.deals (stats : WorkerRunStats)
    (h : s.queue.inflight msg.message_id = some msg) :
    Meets AnyStep (handle_message env run_job_once msg.tenant_id stats msg) s (fun r s' =>
      Dealt msg s.queue s'.queue ∧ ∃ stats', r = .ok stats' ∧ OneCounted stats stats') := by
  have hacked : ∀ w stats', OneCounted stats stats' →
      Meets AnyStep (ack_message msg.tenant_id msg.message_id >>= fun _ => pure stats')
        { s with world := w } (fun r s' => Dealt msg s.queue s'.queue ∧
          ∃ stats', r = .ok stats' ∧ OneCounted stats stats') := by
    intro w stats' hcounted
    obtain ⟨hok, hdealt⟩ := ack_deals h
    rw [ack_message, meets_bind, meets_in_queue]
    dsimp only
    rw [hok, then_ok, meets_pure]
    exact ⟨hdealt, stats', rfl, hcounted⟩
  unfold handle_message
  dsimp only
  rw [meets_ite]
  constructor
  · intro _
    apply hacked s.world
    constructor
    · rfl
    · dsimp only
      omega
  · intro _
    rw [meets_bind]
    refine ⟨keeps_true _ _, ?_⟩
    rw [result_attempt, final_attempt, result_in_store, final_in_store, then_ok]
    generalize (run_job_once (job_id_of env msg) msg.tenant_id).final s.world = w
    rcases (run_job_once (job_id_of env msg) msg.tenant_id).result s.world with e | result
    · apply hacked
      constructor
      · rfl
      · dsimp only
        omega
    · dsimp only
      refine (settle.deals (s := ⟨w, s.queue⟩) result h).bind ?_ ?_
      · intro _ s' hdealt
        rw [meets_pure]
        exact ⟨hdealt.2, _, rfl, count_one stats result⟩
      · rintro e s' ⟨⟨u, hu⟩, -⟩
        cases hu

/-- What a dequeue takes stood under its key and is in flight. -/
theorem dequeue_message.spec (tenant_id queue_name : String) (s : Service) :
    Meets AnyStep (dequeue_message env tenant_id queue_name) s (fun r s' =>
      (∀ key m, m ∈ s'.queue.deque key → m ∈ s.queue.deque key) ∧
        ((r = .ok none ∧ s'.queue.inflight = s.queue.inflight) ∨
          ∃ msg, r = .ok (some msg) ∧ msg ∈ s.queue.deque (queue_key tenant_id queue_name) ∧
            s'.queue.inflight = Function.update s.queue.inflight msg.message_id (some msg))) := by
  rw [dequeue_message]
  refine past_now fun now w => ?_
  rw [meets_in_queue]
  dsimp only
  obtain ⟨hpending, htaken⟩ := dequeue_cases s.queue now tenant_id queue_name
  refine ⟨hpending, ?_⟩
  cases htook : (dequeue s.queue now tenant_id queue_name).2 with
  | none =>
    rw [htook] at htaken
    exact .inl ⟨rfl, htaken⟩
  | some msg =>
    rw [htook] at htaken
    exact .inr ⟨msg, rfl, htaken⟩

/-! ## The iteration so far -/

/-- Each pending message stands under its own key, and no tenant has that key
with one of the queue names. -/
def KeysApart (queue_names : List String) (q : InMemoryQueueBackend) : Prop :=
  ∀ key msg, msg ∈ q.deque key → key = queue_key msg.tenant_id msg.queue_name ∧
    ∀ queue_name ∈ queue_names, ∀ tenant_id, tenant_id ≠ "" →
      queue_key tenant_id queue_name = key → tenant_id = msg.tenant_id

/-- Queue names that are never ambiguous keep the keys apart. -/
theorem keys_apart_of_unambiguous {used : Set (String × String)} (hclear : Unambiguous used)
    {queue_names : List String} (hnames : ∀ queue_name ∈ queue_names, ∃ p ∈ used, p.2 = queue_name)
    (hpending : ∀ key msg, msg ∈ q.deque key →
      key = queue_key msg.tenant_id msg.queue_name ∧ (msg.tenant_id, msg.queue_name) ∈ used) :
    KeysApart queue_names q := by
  intro key msg hmsg
  obtain ⟨hkey, hused⟩ := hpending key msg hmsg
  refine ⟨hkey, fun queue_name hname tenant_id hne hsame => ?_⟩
  obtain ⟨p, hp, rfl⟩ := hnames queue_name hname
  rw [hkey, queue_key_eq, queue_key_eq, key_of_eq_iff] at hsame
  have hqueue : msg.queue_name = p.2 := hclear _ hused p hp tenant_id hne hsame.symm
  rw [hqueue, String.append_left_inj, String.append_left_inj] at hsame
  exact hsame

def isListed : IterationEvent → Bool
  | .listed _ => true
  | .took _ _ => false

/-- A message of the tenant. -/
def tookFor (tenant_id : String) : IterationEvent → Bool
  | .listed _ => false
  | .took owner _ => owner = tenant_id

/-- What holds of the counters, the log and the queue while an iteration
goes on. -/
structure Going (rt : WorkerRuntime) (it : Iteration) (q : InMemoryQueueBackend) : Prop where
  apart : KeysApart rt.queue_names q
  bounded : it.stats.processed ≤ rt.max_messages_per_iteration
  counted : it.stats.processed = it.stats.acked + it.stats.requeued
  logged : it.stats.processed = it.log.countP fun event => !isListed event
  settled : ∀ tenant_id msg, .took tenant_id msg ∈ it.log → q.inflight msg.message_id = none

theorem Going.dequeued (h : Going rt it q) (hpending : ∀ key m, m ∈ q'.deque key → m ∈ q.deque key)
    (hinflight : q'.inflight = q.inflight) : Going rt it q' where
  apart key m hm := h.apart key m (hpending key m hm)
  bounded := h.bounded
  counted := h.counted
  logged := h.logged
  settled tenant_id m hm := by rw [hinflight]; exact h.settled tenant_id m hm

theorem Going.listed (h : Going rt it q) (tenants : List String) :
    Going rt (it.note (.listed tenants)) q where
  apart := h.apart
  bounded := h.bounded
  counted := h.counted
  logged := by simp [Iteration.note, isListed, h.logged]
  settled tenant_id m hm := by
    refine h.settled tenant_id m ?_
    simpa [Iteration.note] using hm

theorem process_next.spec {queue_name tenant_id : String} (hname : queue_name ∈ rt.queue_names)
    (hne : tenant_id ≠ "") (h : Going rt it s.queue)
    (hroom : it.stats.processed < rt.max_messages_per_iteration) :
    Meets AnyStep (process_next env run_job_once queue_name tenant_id it) s (fun r s' =>
      ∃ it', Going rt it' s'.queue ∧ ((r = .ok (false, it') ∧ it'.log = it.log) ∨
        ∃ msg, r = .ok (true, it') ∧ it'.log = it.log ++ [.took tenant_id msg])) := by
  unfold process_next
  refine (dequeue_message.spec tenant_id queue_name s).bind ?_ ?_
  · intro taken s₁ hdequeued
    obtain ⟨hpending, htaken⟩ := hdequeued
    rcases htaken with ⟨hnone, hinflight⟩ | ⟨msg, hsome, hin, hinflight⟩
    · cases hnone
      rw [meets_pure]
      exact ⟨it, h.dequeued hpending hinflight, .inl ⟨rfl, rfl⟩⟩
    · cases hsome
      obtain ⟨hkey, hapart⟩ := h.apart _ _ hin
      have hown : tenant_id = msg.tenant_id := hapart queue_name hname tenant_id hne rfl
      have hflying : s₁.queue.inflight msg.message_id = some msg := by
        rw [hinflight, Function.update_self]
      dsimp only
      rw [hown]
      refine (handle_message.deals it.stats hflying).bind ?_ ?_
      · intro stats s₂ hdealt
        obtain ⟨hdealt, stats', hok, hcounted⟩ := hdealt
        cases hok
        rw [meets_pure]
        refine ⟨_, ?_, .inr ⟨msg, rfl, rfl⟩⟩
        constructor
        · intro key m hm
          rcases hdealt.pending key m hm with hold | ⟨hkey', htenant, hqueue⟩
          · exact h.apart key m (hpending key m hold)
          · rw [hkey', htenant, hqueue, ← hkey]
            refine ⟨rfl, fun name hname' other hne' hsame => ?_⟩
            exact hapart name hname' other hne' hsame
        · have hone := hcounted.processed
          dsimp only [Iteration.note]
          omega
        · have hone := hcounted.processed
          have hended := hcounted.ended
          have hold := h.counted
          dsimp only [Iteration.note]
          omega
        · have hone := hcounted.processed
          have hold := h.logged
          simp [Iteration.note, isListed, hone, hold]
        · intro owner m hm
          by_cases hid : m.message_id = msg.message_id
          · rw [hid]
            exact hdealt.out
          · rw [hdealt.others _ hid, hinflight, Function.update_of_ne hid]
            simp only [Iteration.note, List.mem_append, List.mem_singleton] at hm
            rcases hm with hm | hm
            · exact h.settled owner m hm
            · cases hm
              exact absurd rfl hid
      · rintro e s₂ ⟨-, stats', he, -⟩
        cases he
  · rintro e s₁ ⟨-, ⟨he, -⟩ | ⟨msg, he, -⟩⟩
    · cases he
    · cases he

/-! ## Bursts -/

/-- How a burst ends: it took messages of its tenant only, and not more than it
may. Where it took none, it made no progress. -/
def BurstEnds (rt : WorkerRuntime) (tenant_id : String) (left : Nat) (progressed : Bool)
    (it : Iteration) (r : Except PyErr (Bool × Iteration)) (q : InMemoryQueueBackend) : Prop :=
  ∃ progressed' it' msgs, r = .ok (progressed', it') ∧ Going rt it' q ∧
    it'.log = it.log ++ msgs.map (.took tenant_id) ∧ msgs.length ≤ left ∧
    (progressed' = true → progressed = true ∨ msgs ≠ [])

theorem burst_stops {it' : Iteration} (tenant_id : String) (left : Nat) (progressed : Bool)
    (h : Going rt it' q) (hlog : it'.log = it.log) :
    BurstEnds rt tenant_id left progressed it (.ok (progressed, it')) q := by
  refine ⟨progressed, it', [], rfl, h, ?_, Nat.zero_le _, .inl⟩
  rw [hlog, List.map_nil, List.append_nil]

theorem burst.spec {queue_name tenant_id : String} (hname : queue_name ∈ rt.queue_names)
    (hne : tenant_id ≠ "") (left : Nat) (progressed : Bool) (h : Going rt it s.queue) :
    Meets AnyStep (burst env rt run_job_once queue_name tenant_id left progressed it) s
      (fun r s' => BurstEnds rt tenant_id left progressed it r s'.queue) := by
  induction left generalizing s it progressed with
  | zero =>
    rw [burst, meets_pure]
    exact burst_stops tenant_id 0 progressed h rfl
  | succ left ih =>
    rw [burst, meets_ite]
    constructor
    · intro _
      rw [meets_pure]
      exact burst_stops tenant_id _ progressed h rfl
    · intro hroom
      refine (process_next.spec hname hne h (not_le.1 hroom)).bind ?_ ?_
      · rintro ⟨handled, it₁⟩ s₁ ⟨_, hgoing, ⟨⟨⟩, hlog⟩ | ⟨msg, ⟨⟩, hlog⟩⟩
        · dsimp only
          rw [if_neg Bool.false_ne_true, meets_pure]
          exact burst_stops tenant_id _ progressed hgoing hlog
        · dsimp only
          rw [if_pos rfl]
          refine (ih true hgoing).post ?_
          rintro r s' ⟨progressed', it', msgs, hok, hgoing', hlog', hlength, -⟩
          refine ⟨progressed', it', msg :: msgs, hok, hgoing', ?_, ?_, fun _ => .inr (by simp)⟩
          · rw [hlog', hlog, List.append_assoc]
            rfl
          · simpa using hlength
      · rintro e s₁ ⟨it', -, ⟨he, -⟩ | ⟨msg, he, -⟩⟩
        · cases he
        · cases he

/-- A stretch without a listing, with at most `limit` messages of each
tenant, and none of a tenant that was not served. -/
structure Stretch (limit : Nat) (tenants : List String) (events : List IterationEvent) : Prop where
  unlisted : ∀ event ∈ events, isListed event = false
  within : ∀ tenant_id, events.countP (tookFor tenant_id) ≤ limit
  served : ∀ tenant_id, tenant_id ∉ tenants → events.countP (tookFor tenant_id) = 0

theorem stretch_nil (limit : Nat) (tenants : List String) : Stretch limit tenants [] := by
  constructor
  · simp
  · simp
  · simp

theorem count_burst (tenant_id other : String) (msgs : List QueueMessage) :
    (msgs.map (IterationEvent.took tenant_id)).countP (tookFor other) =
      if tenant_id = other then msgs.length else 0 := by
  rw [List.countP_map]
  by_cases hsame : tenant_id = other
  · rw [if_pos hsame, List.countP_eq_length]
    intro msg _
    simp [tookFor, hsame]
  · rw [if_neg hsame, List.countP_eq_zero]
    intro msg _
    simp [tookFor, hsame]

/-- The burst of a tenant before the stretch of the others. -/
theorem Stretch.cons {limit : Nat} {tenant_id : String} {rest : List String}
    {events : List IterationEvent} {msgs : List QueueMessage} (h : Stretch limit rest events)
    (hnew : tenant_id ∉ rest) (hlength : msgs.length ≤ limit) :
    Stretch limit (tenant_id :: rest) (msgs.map (.took tenant_id) ++ events) := by
  constructor
  · intro event hevent
    rcases List.mem_append.1 hevent with hin | hin
    · obtain ⟨msg, -, rfl⟩ := List.mem_map.1 hin
      rfl
    · exact h.unlisted event hin
  · intro other
    rw [List.countP_append, count_burst]
    by_cases hsame : tenant_id = other
    · have hnone := h.served other (hsame ▸ hnew)
      rw [if_pos hsame]
      omega
    · have hothers := h.within other
      rw [if_neg hsame]
      omega
  · intro other hother
    rw [List.mem_cons, not_or] at hother
    rw [List.countP_append, count_burst, if_neg (Ne.symm hother.1), h.served other hother.2]

theorem serve_tenants.spec {queue_name : String} (hname : queue_name ∈ rt.queue_names)
    (tenants : List String) (hnodup : tenants.Nodup) (hne : ∀ tenant_id ∈ tenants, tenant_id ≠ "")
    (progressed : Bool) (h : Going rt it s.queue) :
    Meets AnyStep (serve_tenants env rt run_job_once queue_name tenants progressed it) s
      (fun r s' => ∃ progressed' it' events, r = .ok (progressed', it') ∧ Going rt it' s'.queue ∧
        it'.log = it.log ++ events ∧ Stretch rt.tenant_burst_limit tenants events ∧
        (progressed' = true → progressed = true ∨ events ≠ [])) := by
  induction tenants generalizing s it progressed with
  | nil =>
    rw [serve_tenants, meets_pure]
    exact ⟨progressed, it, [], rfl, h, (List.append_nil _).symm, stretch_nil _ [], .inl⟩
  | cons tenant_id rest ih =>
    rw [List.nodup_cons] at hnodup
    rw [serve_tenants]
    refine (burst.spec hname (hne tenant_id List.mem_cons_self) rt.tenant_burst_limit progressed
      h).bind ?_ ?_
    · rintro ⟨progressed₁, it₁⟩ s₁ ⟨_, _, msgs, ⟨⟩, hgoing, hlog, hlength, hprogress⟩
      dsimp only
      refine (ih hnodup.2 (fun other hother => hne other (List.mem_cons_of_mem _ hother))
        progressed₁ hgoing).post ?_
      rintro r s' ⟨progressed', it', events, hok, hgoing', hlog', hstretch, hprogress'⟩
      refine ⟨progressed', it', _, hok, hgoing', ?_, hstretch.cons hnodup.1 hlength, fun hyes => ?_⟩
      · rw [hlog', hlog, List.append_assoc]
      · rcases hprogress' hyes with hbefore | hevents
        · rcases hprogress hbefore with hfirst | hmsgs
          · exact .inl hfirst
          · exact .inr (by simp [hmsgs])
        · exact .inr (by simp [hevents])
    · rintro e s₁ ⟨_, _, _, he, -⟩
      cases he

/-! ## Rounds -/

/-- In each stretch between listings, at most `limit` messages of each
tenant. -/
def FairLog (limit : Nat) (log : List IterationEvent) : Prop :=
  ∀ stretch ∈ log.splitOnP isListed, ∀ tenant_id, stretch.countP (tookFor tenant_id) ≤ limit

/-- A listing, and then a stretch. -/
theorem FairLog.round {limit : Nat} {tenants : List String} {log events : List IterationEvent}
    (h : FairLog limit log) (hstretch : Stretch limit tenants events) :
    FairLog limit (log ++ .listed tenants :: events) := by
  intro stretch hin
  rw [List.splitOnP_append_cons _ _ rfl, List.splitOnP_eq_singleton hstretch.unlisted] at hin
  rcases List.mem_append.1 hin with hold | hnew
  · exact h stretch hold
  · rw [List.mem_singleton.1 hnew]
    exact hstretch.within

theorem listed_nodup (q : InMemoryQueueBackend) (queue_name : String) :
    (list_tenants q queue_name).Nodup := by
  unfold list_tenants sorted_tenants
  exact (List.perm_insertionSort _ _).nodup_iff.2 (List.nodup_dedup _)

/-- A round that makes progress counts a message, so the rounds end before the
fuel does. -/
theorem serve_queue.spec {queue_name : String} (hname : queue_name ∈ rt.queue_names) (fuel : Nat)
    (hfuel : rt.max_messages_per_iteration < it.stats.processed + fuel) (h : Going rt it s.queue)
    (hfair : FairLog rt.tenant_burst_limit it.log) :
    Meets AnyStep (serve_queue env rt run_job_once queue_name fuel it) s (fun r s' =>
      ∃ it', r = .ok (some it') ∧ Going rt it' s'.queue ∧ FairLog rt.tenant_burst_limit it'.log) := by
  induction fuel generalizing s it with
  | zero =>
    have hbounded := h.bounded
    omega
  | succ fuel ih =>
    rw [serve_queue, meets_ite]
    constructor
    · intro _
      rw [list_worker_tenants, meets_bind, meets_in_queue, then_ok]
      dsimp only
      generalize htenants : (list_tenants s.queue queue_name).filter (fun tenant_id => tenant_id ≠ "") =
        tenants
      have hnodup : tenants.Nodup := htenants ▸ (listed_nodup s.queue queue_name).filter _
      have hne : ∀ tenant_id ∈ tenants, tenant_id ≠ "" := by
        intro tenant_id hin
        rw [← htenants, List.mem_filter] at hin
        simpa using hin.2
      have hlisted : Going rt (it.note (.listed tenants)) s.queue := h.listed tenants
      rw [meets_ite]
      constructor
      · intro _
        rw [meets_pure]
        exact ⟨_, rfl, hlisted, hfair.round (stretch_nil rt.tenant_burst_limit tenants)⟩
      · intro _
        refine (serve_tenants.spec hname tenants hnodup hne false hlisted).bind ?_ ?_
        · rintro ⟨progressed, it₁⟩ s₁ ⟨_, _, events, ⟨⟩, hgoing, hlog, hstretch, hprogress⟩
          have hfair₁ : FairLog rt.tenant_burst_limit it₁.log := by
            rw [hlog, Iteration.note, List.append_assoc]
            exact hfair.round hstretch
          dsimp only
          rw [meets_ite]
          constructor
          · intro hyes
            have hevents : events ≠ [] := (hprogress hyes).resolve_left (by simp)
            have hcount : it₁.stats.processed = it.stats.processed + events.length := by
              have hall : events.countP (fun event => !isListed event) = events.length := by
                rw [List.countP_eq_length]
                intro event hevent
                simp [hstretch.unlisted event hevent]
              rw [hgoing.logged, hlog, List.countP_append, hall, ← hlisted.logged]
              rfl
            have hsome := List.length_pos_of_ne_nil hevents
            exact ih (by omega) hgoing hfair₁
          · intro _
            rw [meets_pure]
            exact ⟨_, rfl, hgoing, hfair₁⟩
        · rintro e s₁ ⟨_, _, _, he, -⟩
          cases he
    · intro _
      rw [meets_pure]
      exact ⟨_, rfl, h, hfair⟩

/-! ## The iteration -/

theorem serve_queues.spec (fuel : Nat) (hfuel : rt.max_messages_per_iteration < fuel)
    (queue_names : List String) (hnames : ∀ queue_name ∈ queue_names, queue_name ∈ rt.queue_names)
    (h : Going rt it s.queue) (hfair : FairLog rt.tenant_burst_limit it.log) :
    Meets AnyStep (serve_queues env rt run_job_once fuel queue_names it) s (fun r s' =>
      ∃ it', r = .ok (some it') ∧ Going rt it' s'.queue ∧ FairLog rt.tenant_burst_limit it'.log) := by
  induction queue_names generalizing s it with
  | nil =>
    rw [serve_queues, meets_pure]
    exact ⟨it, rfl, h, hfair⟩
  | cons queue_name rest ih =>
    rw [serve_queues]
    have hname : queue_name ∈ rt.queue_names := hnames queue_name List.mem_cons_self
    refine (serve_queue.spec hname fuel (by omega) h hfair).bind ?_ ?_
    · rintro done s₁ ⟨it₁, ⟨⟩, hgoing, hfair₁⟩
      exact ih (fun other hother => hnames other (List.mem_cons_of_mem _ hother)) hgoing hfair₁
    · rintro e s₁ ⟨_, he, -⟩
      cases he

/-- What an iteration has done when it ends: the counters agree with each
other and with the log, no message that it took is in flight, and it was fair
to the tenants. -/
structure FairIteration (rt : WorkerRuntime) (it : Iteration) (q : InMemoryQueueBackend) : Prop where
  bounded : it.stats.processed ≤ rt.max_messages_per_iteration
  counted : it.stats.processed = it.stats.acked + it.stats.requeued
  logged : it.stats.processed = it.log.countP fun event => !isListed event
  settled : ∀ tenant_id msg, .took tenant_id msg ∈ it.log → q.inflight msg.message_id = none
  fair : FairLog rt.tenant_burst_limit it.log

/-- From any queue with its keys apart, whatever the runs of the jobs and the
clock do, an iteration ends with fuel for one round more than its messages,
and it is fair. -/
theorem run_once_is_fair (env : Env) (rt : WorkerRuntime) (run_job_once : Runner) (s : Service)
    (hapart : KeysApart rt.queue_names s.queue) (fuel : Nat)
    (hfuel : rt.max_messages_per_iteration < fuel) :
    ∃ it, (run_once env rt run_job_once fuel).result s = .ok (some it) ∧
      FairIteration rt it ((run_once env rt run_job_once fuel).final s).queue := by
  have hstart : Going rt Iteration.start s.queue := by
    refine ⟨hapart, Nat.zero_le _, rfl, rfl, fun tenant_id msg hin => ?_⟩
    cases hin
  have hfair : FairLog rt.tenant_burst_limit Iteration.start.log := by
    intro stretch hin tenant_id
    rw [Iteration.start, List.splitOnP_nil, List.mem_singleton] at hin
    rw [hin]
    exact Nat.zero_le _
  have hends : Meets AnyStep (run_once env rt run_job_once fuel) s _ :=
    serve_queues.spec fuel hfuel rt.queue_names (fun _ h => h) hstart hfair
  obtain ⟨it, hok, hgoing, hfair⟩ := hends.2
  exact ⟨it, hok, hgoing.bounded, hgoing.counted, hgoing.logged, hgoing.settled, hfair⟩

/-- A message without a job for each of two tenants. -/
def waiting_queue : InMemoryQueueBackend :=
  (enqueue (enqueue new 0 "1" "first" "jobs" [] none).1 0 "2" "second" "jobs" [] none).1

theorem waiting_apart : KeysApart ["jobs"] waiting_queue := by
  have hplain : Unambiguous {("first", "jobs"), ("second", "jobs")} := by
    refine unambiguous_of_plain ?_
    rintro p (rfl | rfl)
    · decide
    · decide
  refine keys_apart_of_unambiguous hplain ?_ ?_
  · intro queue_name hname
    rw [List.mem_singleton.1 hname]
    exact ⟨("first", "jobs"), .inl rfl, rfl⟩
  · intro key msg hmsg
    have hentries : waiting_queue.queues.entries =
        [("bea:first:queue:jobs", [⟨"msg_1", "first", "jobs", [], 0, some 0⟩]),
          ("bea:second:queue:jobs", [⟨"msg_2", "second", "jobs", [], 0, some 0⟩])] := by
      rfl
    obtain ⟨queue, hin, hmsg⟩ := mem_deque_iff.1 hmsg
    rw [hentries] at hin
    simp only [List.mem_cons, List.not_mem_nil, or_false, Prod.mk.injEq] at hin
    rcases hin with ⟨rfl, rfl⟩ | ⟨rfl, rfl⟩
    · rw [List.mem_singleton.1 hmsg]
      exact ⟨by decide, .inl rfl⟩
    · rw [List.mem_singleton.1 hmsg]
      exact ⟨by decide, .inr rfl⟩

def jobs_worker : WorkerRuntime := .init ["jobs"] 1 20

/-- Both messages are taken in one round, and the next listing is empty. -/
theorem waiting_queue_is_served :
    ∃ it, (run_once calm_env jobs_worker (worker_runner calm_env) 21).result
        ⟨World.start, waiting_queue⟩ = .ok (some it) ∧
      FairIteration jobs_worker it
        ((run_once calm_env jobs_worker (worker_runner calm_env) 21).final
          ⟨World.start, waiting_queue⟩).queue :=
  run_once_is_fair calm_env jobs_worker (worker_runner calm_env) ⟨World.start, waiting_queue⟩
    waiting_apart 21 (by decide)

end bid_evaluation.iteration_laws
