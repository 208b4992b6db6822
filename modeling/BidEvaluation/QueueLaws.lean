-- The laws of the in-memory queue. The life of one message is a path
-- through four places: nowhere, waiting, held and finished. Each call of
-- the queue moves one message along that path, or moves nothing.
import BidEvaluation.QueueBackend
import Mathlib.Data.List.Induction

open dict_lib bid_evaluation.values

namespace bid_evaluation.queue_backend

/-! ## The life of a message -/

/-- What a call did to a message, as the caller sees it. -/
inductive Event where
  | enqueued (msg : QueueMessage)
  | delivered (now : Int) (msg : QueueMessage)
  | acked (msg : QueueMessage)
  | nacked (requeue : Bool) (msg : QueueMessage)

def Event.msg : Event → QueueMessage
  | .enqueued msg => msg
  | .delivered _ msg => msg
  | .acked msg => msg
  | .nacked _ msg => msg

def Event.id (e : Event) : String := e.msg.message_id

/-- An ack finishes a message, and so does a nack that does not requeue. -/
def Event.finishes : Event → Bool
  | .enqueued _ => false
  | .delivered _ _ => false
  | .acked _ => true
  | .nacked requeue _ => !requeue

def Event.isNack : Event → Bool
  | .nacked _ _ => true
  | _ => false

def Event.requeues : Event → Bool
  | .nacked requeue _ => requeue
  | _ => false

inductive Place where
  | nowhere
  | waiting (msg : QueueMessage)
  | held (msg : QueueMessage)
  | finished

def Event.place : Event → Place
  | .enqueued msg => .waiting msg
  | .delivered _ msg => .held msg
  | .acked _ => .finished
  | .nacked true msg => .waiting msg
  | .nacked false _ => .finished

/-- The events of one message, oldest first. -/
def eventsOf (log : List Event) (id : String) : List Event := log.filter (fun e => e.id = id)

/-- The last event of a message says where it is. -/
def placeOf (log : List Event) (id : String) : Place :=
  match (eventsOf log id).getLast? with
  | none => .nowhere
  | some e => e.place

/-- The moves of a message. A delivery needs that the message is due. A
nack counts one more attempt, and may set a new due time. -/
inductive Move : Place → Event → Prop where
  | enqueue (msg : QueueMessage) : Move .nowhere (.enqueued msg)
  | deliver (now : Int) (msg : QueueMessage) (hdue : is_available now msg = true) :
      Move (.waiting msg) (.delivered now msg)
  | ack (msg : QueueMessage) : Move (.held msg) (.acked msg)
  | nack (msg : QueueMessage) (requeue : Bool) (available_at : Option Int) :
      Move (.held msg) (.nacked requeue
        { msg with attempt := msg.attempt + 1, available_at := available_at })

/-- A log in which every event moves its message along its life. -/
inductive Legal : List Event → Prop where
  | nil : Legal []
  | snoc {log : List Event} {e : Event} (h : Legal log) (hm : Move (placeOf log e.id) e) :
      Legal (log ++ [e])

/-! ## Laws of a legal log -/

theorem eventsOf_snoc (log : List Event) (e : Event) (id : String) :
    eventsOf (log ++ [e]) id = if e.id = id then eventsOf log id ++ [e] else eventsOf log id := by
  unfold eventsOf
  rw [List.filter_append]
  by_cases h : e.id = id <;> simp [h]

theorem placeOf_snoc (log : List Event) (e : Event) (id : String) :
    placeOf (log ++ [e]) id = if e.id = id then e.place else placeOf log id := by
  unfold placeOf
  rw [eventsOf_snoc]
  by_cases h : e.id = id <;> simp [h]

theorem place_of_finishes {e : Event} (h : e.finishes = true) : e.place = .finished := by
  cases e with
  | enqueued _ => simp [Event.finishes] at h
  | delivered _ _ => simp [Event.finishes] at h
  | acked _ => rfl
  | nacked requeue _ =>
    cases requeue with
    | false => rfl
    | true => simp [Event.finishes] at h

theorem no_move_from_finished {e : Event} : ¬ Move .finished e := by
  intro h
  cases h

/-- After its last event a message stays where it is. -/
theorem placeOf_append_of_ne {log post : List Event} {id : String}
    (h : ∀ e ∈ post, e.id ≠ id) : placeOf (log ++ post) id = placeOf log id := by
  unfold placeOf eventsOf
  have hnil : post.filter (fun e => e.id = id) = [] := by
    rw [List.filter_eq_nil_iff]
    intro e he
    simpa using h e he
  rw [List.filter_append, hnil, List.append_nil]

/-- Nothing happens to a finished message any more. -/
theorem finished_is_final {log : List Event} (h : Legal log) :
    ∀ pre e post, log = pre ++ e :: post → e.finishes = true → ∀ e' ∈ post, e'.id ≠ e.id := by
  induction h with
  | nil =>
    intro pre e post heq
    simp at heq
  | @snoc log last _ hm ih =>
    intro pre e post heq hfin e' he'
    rcases List.eq_nil_or_concat post with hnil | ⟨post', x, hpost⟩
    · simp [hnil] at he'
    · subst hpost
      have hsplit : log ++ [last] = (pre ++ e :: post') ++ [x] := by simpa using heq
      obtain ⟨hlog, hlast⟩ := List.append_inj' hsplit rfl
      have hx : last = x := by simpa using hlast
      subst hx
      have hbefore := ih pre e post' hlog hfin
      rw [List.concat_eq_append] at he'
      rcases List.mem_append.1 he' with hin | hin
      · exact hbefore e' hin
      · have hlastid : e' = last := by simpa using hin
        subst hlastid
        intro hid
        have hplace : placeOf log e'.id = .finished := by
          rw [hlog, hid, show pre ++ e :: post' = (pre ++ [e]) ++ post' by simp,
            placeOf_append_of_ne hbefore, placeOf_snoc, if_pos rfl, place_of_finishes hfin]
        rw [hplace] at hm
        exact no_move_from_finished hm

/-- A delivery happens only when the message is due. -/
theorem delivered_when_due {log : List Event} (h : Legal log) :
    ∀ pre now msg post, log = pre ++ .delivered now msg :: post →
      placeOf pre msg.message_id = .waiting msg ∧ is_available now msg = true := by
  induction h with
  | nil =>
    intro pre now msg post heq
    simp at heq
  | @snoc log last _ hm ih =>
    intro pre now msg post heq
    rcases List.eq_nil_or_concat post with hnil | ⟨post', x, hpost⟩
    · subst hnil
      obtain ⟨hlog, hlast⟩ := List.append_inj' heq rfl
      have hx : last = .delivered now msg := by simpa using hlast
      subst hx hlog
      generalize hp : placeOf log (Event.delivered now msg).id = p at hm
      cases hm with
      | deliver _ _ hdue => exact ⟨hp, hdue⟩
    · subst hpost
      have hsplit : log ++ [last] = (pre ++ .delivered now msg :: post') ++ [x] := by
        simpa using heq
      exact ih pre now msg post' (List.append_inj' hsplit rfl).1

def nacksOf (log : List Event) (id : String) : Nat := (eventsOf log id).countP Event.isNack

def requeuesOf (log : List Event) (id : String) : Nat := (eventsOf log id).countP Event.requeues

/-- The message that a place holds. -/
def Place.msg? : Place → Option QueueMessage
  | .nowhere => none
  | .waiting msg => some msg
  | .held msg => some msg
  | .finished => none

/-- A message that waits or is held is the one of its last event. -/
theorem last_of_place {log : List Event} {id : String} {msg : QueueMessage}
    (h : (placeOf log id).msg? = some msg) :
    ∃ e, (eventsOf log id).getLast? = some e ∧ e.msg = msg ∧ e.finishes = false := by
  unfold placeOf at h
  split at h
  · simp [Place.msg?] at h
  · rename_i e hlast
    refine ⟨e, hlast, ?_⟩
    cases e with
    | acked _ => simp [Event.place, Place.msg?] at h
    | nacked requeue m => cases requeue <;> simp_all [Event.place, Place.msg?, Event.msg,
        Event.finishes]
    | _ => simp_all [Event.place, Place.msg?, Event.msg, Event.finishes]

theorem eventsOf_of_nowhere {log : List Event} {id : String} (h : placeOf log id = .nowhere) :
    eventsOf log id = [] := by
  unfold placeOf at h
  split at h
  · rename_i hnone
    exact List.getLast?_eq_none_iff.1 hnone
  · rename_i e _
    cases e with
    | nacked requeue _ => cases requeue <;> simp [Event.place] at h
    | _ => simp [Event.place] at h

/-- What stays and what counts up in a message: no event takes it to
another tenant or queue, and each nack adds one attempt. -/
structure Follows (first : QueueMessage) (nacks : Nat) (msg : QueueMessage) : Prop where
  tenant : msg.tenant_id = first.tenant_id
  queue : msg.queue_name = first.queue_name
  attempt : msg.attempt = first.attempt + nacks

theorem follows_last {log : List Event} (h : Legal log) :
    ∀ first, .enqueued first ∈ log →
      ∀ e, (eventsOf log first.message_id).getLast? = some e →
        Follows first (nacksOf log first.message_id) e.msg := by
  induction h with
  | nil =>
    intro first hfirst
    simp at hfirst
  | @snoc log last _ hm ih =>
    intro first hfirst e he
    unfold nacksOf
    rw [eventsOf_snoc] at he ⊢
    by_cases hid : last.id = first.message_id
    · simp only [hid, if_true, List.getLast?_concat, Option.some.injEq] at he ⊢
      subst he
      generalize hp : placeOf log last.id = p at hm
      have hprior : ∀ m, p.msg? = some m → .enqueued first ∈ log →
          Follows first (nacksOf log first.message_id) m := by
        intro m hmsg hin
        obtain ⟨e0, hlast, hmsg0, _⟩ := last_of_place (hp ▸ hmsg)
        rw [← hmsg0]
        exact ih first hin e0 (hid ▸ hlast)
      have hin : last ≠ .enqueued first → .enqueued first ∈ log := by
        intro hne
        rcases List.mem_append.1 hfirst with hin | hin
        · exact hin
        · exact absurd (List.mem_singleton.1 hin).symm hne
      rw [List.countP_append]
      cases hm with
      | enqueue msg =>
        have hnil := eventsOf_of_nowhere hp
        have hnotin : .enqueued first ∉ log := by
          intro hin
          have : Event.enqueued first ∈ eventsOf log (Event.enqueued msg).id := by
            unfold eventsOf
            rw [List.mem_filter]
            exact ⟨hin, decide_eq_true hid.symm⟩
          simp [hnil] at this
        rcases List.mem_append.1 hfirst with hin' | hin'
        · exact absurd hin' hnotin
        · have heq : first = msg := by simpa using hin'
          subst heq
          rw [← hid, hnil]
          exact ⟨rfl, rfl, by simp [Event.msg, Event.isNack]⟩
      | deliver now msg hdue =>
        obtain ⟨h1, h2, h3⟩ := hprior msg rfl (hin (by simp))
        exact ⟨h1, h2, by simpa [Event.msg, Event.isNack, nacksOf] using h3⟩
      | ack msg =>
        obtain ⟨h1, h2, h3⟩ := hprior msg rfl (hin (by simp))
        exact ⟨h1, h2, by simpa [Event.msg, Event.isNack, nacksOf] using h3⟩
      | nack msg requeue available_at =>
        obtain ⟨h1, h2, h3⟩ := hprior msg rfl (hin (by simp))
        refine ⟨h1, h2, ?_⟩
        simp only [nacksOf] at h3
        simp only [Event.msg, Event.isNack, List.countP_cons, List.countP_nil, h3]
        simp
        omega
    · simp only [hid, if_false] at he ⊢
      rcases List.mem_append.1 hfirst with hin | hin
      · exact ih first hin e he
      · have heq : last = .enqueued first := (List.mem_singleton.1 hin).symm
        exact absurd (by rw [heq]; rfl) hid

/-- While a message waits or is held, all its nacks were requeues. -/
theorem nacks_are_requeues {log : List Event} (h : Legal log) (id : String) :
    (placeOf log id).msg? ≠ none → nacksOf log id = requeuesOf log id := by
  induction h with
  | nil =>
    intro _
    rfl
  | @snoc log last _ hm ih =>
    intro hplace
    unfold nacksOf requeuesOf
    rw [placeOf_snoc] at hplace
    rw [eventsOf_snoc]
    by_cases hid : last.id = id
    · subst hid
      simp only [if_true] at hplace ⊢
      generalize hp : placeOf log last.id = p at hm ih
      rw [List.countP_append, List.countP_append]
      cases hm with
      | enqueue msg => simp [eventsOf_of_nowhere hp, Event.isNack, Event.requeues]
      | deliver now msg hdue =>
        have := ih (by simp [Place.msg?])
        simpa [Event.isNack, Event.requeues, nacksOf, requeuesOf] using this
      | ack msg => simp [Event.place, Place.msg?] at hplace
      | nack msg requeue available_at =>
        have := ih (by simp [Place.msg?])
        cases requeue with
        | false => simp [Event.place, Place.msg?] at hplace
        | true => simpa [Event.isNack, Event.requeues, nacksOf, requeuesOf] using this
    · simp only [hid, if_false] at hplace ⊢
      exact ih hplace

/-- The message at a place is the one that the place is for. -/
theorem id_of_place {log : List Event} {id : String} {msg : QueueMessage}
    (h : (placeOf log id).msg? = some msg) : msg.message_id = id := by
  obtain ⟨e, hlast, hmsg, _⟩ := last_of_place h
  have hin := List.mem_of_getLast? hlast
  unfold eventsOf at hin
  rw [← hmsg]
  exact of_decide_eq_true (List.mem_filter.1 hin).2

/-! ## Runs of the queue -/

inductive Op where
  | enqueue (tenant_id queue_name : String) (payload : PyDict) (available_at : Option Int)
  | dequeue (tenant_id queue_name : String)
  | ack (tenant_id message_id : String)
  | nack (tenant_id message_id : String) (requeue : Bool) (delay_ms : Int)

/-- The queue, the number of identifiers drawn, and what happened so far. -/
structure Session where
  queue : InMemoryQueueBackend
  draws : Nat
  log : List Event

def Session.start : Session := ⟨new, 0, []⟩

def call (uuid4 : Uuid4) (s : Session) (now : Int) : Op → Session
  | .enqueue tenant_id queue_name payload available_at =>
    match enqueue s.queue now (uuid4.hex12 s.draws) tenant_id queue_name payload available_at with
    | (q, .ok msg) => ⟨q, s.draws + 1, s.log ++ [.enqueued msg]⟩
    | (q, .error _) => ⟨q, s.draws + 1, s.log⟩
  | .dequeue tenant_id queue_name =>
    match dequeue s.queue now tenant_id queue_name with
    | (q, some msg) => ⟨q, s.draws, s.log ++ [.delivered now msg]⟩
    | (q, none) => ⟨q, s.draws, s.log⟩
  | .ack tenant_id message_id =>
    match s.queue.inflight message_id, ack s.queue tenant_id message_id with
    | some msg, (q, .ok ()) => ⟨q, s.draws, s.log ++ [.acked msg]⟩
    | _, (q, _) => ⟨q, s.draws, s.log⟩
  | .nack tenant_id message_id requeue delay_ms =>
    match nack s.queue now tenant_id message_id requeue delay_ms with
    | (q, .ok (some msg)) => ⟨q, s.draws, s.log ++ [.nacked requeue msg]⟩
    | (q, _) => ⟨q, s.draws, s.log⟩

/-- Any sequence of calls, each with the clock reading it was made at. -/
def run (uuid4 : Uuid4) (calls : List (Int × Op)) : Session :=
  calls.foldl (fun s c => call uuid4 s c.1 c.2) Session.start

/-! ## Where the queue has a message -/

def pendingOf (q : InMemoryQueueBackend) (key id : String) : List QueueMessage :=
  (q.deque key).filter (fun msg => msg.message_id = id)

def Place.pendingAt (p : Place) (key : String) : List QueueMessage :=
  match p with
  | .waiting msg => if key = queue_key msg.tenant_id msg.queue_name then [msg] else []
  | _ => []

def Place.inflight? : Place → Option QueueMessage
  | .held msg => some msg
  | _ => none

/-- The deques and the map of messages in flight agree with the place. -/
structure Placed (q : InMemoryQueueBackend) (id : String) (p : Place) : Prop where
  pending : ∀ key, pendingOf q key id = p.pendingAt key
  inflight : q.inflight id = p.inflight?

structure Kept (uuid4 : Uuid4) (s : Session) : Prop where
  legal : Legal s.log
  placed : ∀ id, Placed s.queue id (placeOf s.log id)
  drawn : ∀ e ∈ s.log, ∃ n < s.draws, e.id = "msg_" ++ uuid4.hex12 n

theorem kept_start (uuid4 : Uuid4) : Kept uuid4 Session.start := by
  refine ⟨Legal.nil, fun id => ⟨fun key => ?_, rfl⟩, ?_⟩
  · simp [Session.start, pendingOf, placeOf, eventsOf, Place.pendingAt]
  · intro e he
    simp [Session.start] at he

/-- A call that moves no message keeps the invariant. -/
theorem kept_quiet {uuid4 : Uuid4} {s : Session} {q : InMemoryQueueBackend} {draws : Nat}
    (h : Kept uuid4 s) (hdraws : s.draws ≤ draws)
    (hdeque : ∀ key id, pendingOf q key id = pendingOf s.queue key id)
    (hinflight : q.inflight = s.queue.inflight) : Kept uuid4 ⟨q, draws, s.log⟩ := by
  refine ⟨h.legal, fun id => ⟨fun key => ?_, ?_⟩, ?_⟩
  · rw [hdeque key id]
    exact (h.placed id).pending key
  · rw [hinflight]
    exact (h.placed id).inflight
  · intro e he
    obtain ⟨n, hn, hid⟩ := h.drawn e he
    exact ⟨n, by simp only; omega, hid⟩

/-- A call that moves one message to the right place, and no other
message, keeps the invariant. -/
theorem kept_event {uuid4 : Uuid4} {s : Session} {q : InMemoryQueueBackend} {draws : Nat}
    {e : Event} (h : Kept uuid4 s) (hdraws : s.draws ≤ draws)
    (hid : ∃ n < draws, e.id = "msg_" ++ uuid4.hex12 n)
    (hmove : Move (placeOf s.log e.id) e) (hplace : Placed q e.id e.place)
    (hdeque : ∀ key id, id ≠ e.id → pendingOf q key id = pendingOf s.queue key id)
    (hinflight : ∀ id, id ≠ e.id → q.inflight id = s.queue.inflight id) :
    Kept uuid4 ⟨q, draws, s.log ++ [e]⟩ := by
  refine ⟨Legal.snoc h.legal hmove, fun id => ?_, ?_⟩
  · rw [placeOf_snoc]
    by_cases heq : e.id = id
    · subst heq
      simpa using hplace
    · simp only [heq, if_false]
      refine ⟨fun key => ?_, ?_⟩
      · rw [hdeque key id (Ne.symm heq)]
        exact (h.placed id).pending key
      · rw [hinflight id (Ne.symm heq)]
        exact (h.placed id).inflight
  · intro e' he'
    rcases List.mem_append.1 he' with hin | hin
    · obtain ⟨n, hn, hid'⟩ := h.drawn e' hin
      exact ⟨n, by simp only; omega, hid'⟩
    · have heq : e' = e := by simpa using hin
      exact heq ▸ hid

/-- A new draw names no message of the log. -/
theorem fresh_place {uuid4 : Uuid4} {s : Session} (h : Kept uuid4 s) :
    placeOf s.log ("msg_" ++ uuid4.hex12 s.draws) = .nowhere := by
  have hnil : eventsOf s.log ("msg_" ++ uuid4.hex12 s.draws) = [] := by
    unfold eventsOf
    rw [List.filter_eq_nil_iff]
    intro e he
    obtain ⟨n, hn, hid⟩ := h.drawn e he
    intro heq
    have hhex := (String.append_right_inj _).1 (hid.symm.trans (of_decide_eq_true heq))
    have := uuid4.distinct hhex
    omega
  simp [placeOf, hnil]

theorem pendingOf_set (q : InMemoryQueueBackend) (key k id : String) (l : List QueueMessage)
    (inflight : String → Option QueueMessage) :
    pendingOf ⟨q.queues.set key l, inflight⟩ k id =
      if k = key then l.filter (fun msg => msg.message_id = id) else pendingOf q k id := by
  unfold pendingOf InMemoryQueueBackend.deque
  simp only [Dict.get?_set]
  split <;> simp

theorem kept_enqueue {uuid4 : Uuid4} {s : Session} (h : Kept uuid4 s) (now : Int)
    (tenant_id queue_name : String) (payload : PyDict) (available_at : Option Int) :
    Kept uuid4 (call uuid4 s now (.enqueue tenant_id queue_name payload available_at)) := by
  simp only [call, enqueue]
  cases (PyDict.getD payload "attempt" (.int 0)).toInt with
  | error e => exact kept_quiet h (Nat.le_succ _) (fun _ _ => rfl) rfl
  | ok attempt =>
    have hfresh := fresh_place h
    obtain ⟨hpend, hinfl⟩ := h.placed ("msg_" ++ uuid4.hex12 s.draws)
    rw [hfresh] at hpend hinfl
    refine kept_event h (Nat.le_succ _) ⟨s.draws, Nat.lt_succ_self _, rfl⟩ ?_ ⟨fun key => ?_, ?_⟩
      ?_ (fun _ _ => rfl)
    · simp only [Event.id, Event.msg, hfresh]
      exact Move.enqueue _
    · simp only [Event.id, Event.msg, Event.place, Place.pendingAt, pendingOf_set]
      split
      · have hnone := hpend (queue_key tenant_id queue_name)
        unfold pendingOf at hnone
        simp [List.filter_append, hnone, Place.pendingAt]
      · exact hpend key
    · exact hinfl
    · intro key id hid
      rw [pendingOf_set]
      split
      · rename_i hkey
        subst hkey
        simp only [Event.id, Event.msg] at hid
        simp [List.filter_append, Ne.symm hid, pendingOf]
      · rfl

/-- A deque holds at most one copy of a message, so its order says nothing. -/
theorem eq_of_perm_pendingAt {l : List QueueMessage} {p : Place} {key : String}
    (h : l.Perm (p.pendingAt key)) : l = p.pendingAt key := by
  cases p with
  | waiting msg =>
    simp only [Place.pendingAt] at h ⊢
    split at h
    · rename_i hkey
      rw [if_pos hkey]
      exact List.perm_singleton.1 h
    · rename_i hkey
      rw [if_neg hkey]
      exact List.perm_nil.1 h
  | _ => exact List.perm_nil.1 h

/-- A message in a deque waits there. -/
theorem place_of_mem {q : InMemoryQueueBackend} {msg : QueueMessage} {key : String} {p : Place}
    (h : Placed q msg.message_id p) (hin : msg ∈ q.deque key) :
    p = .waiting msg ∧ key = queue_key msg.tenant_id msg.queue_name := by
  have hmem : msg ∈ p.pendingAt key := by
    rw [← h.pending key]
    exact List.mem_filter.2 ⟨hin, decide_eq_true rfl⟩
  cases p with
  | waiting m =>
    simp only [Place.pendingAt] at hmem
    split at hmem
    · rename_i hkey
      have heq := List.mem_singleton.1 hmem
      subst heq
      exact ⟨rfl, hkey⟩
    · simp at hmem
  | _ => simp [Place.pendingAt] at hmem

theorem kept_dequeue {uuid4 : Uuid4} {s : Session} (h : Kept uuid4 s) (now : Int)
    (tenant_id queue_name : String) :
    Kept uuid4 (call uuid4 s now (.dequeue tenant_id queue_name)) := by
  simp only [call]
  obtain ⟨queue', ⟨hdequeue, hscan⟩ | ⟨msg, hdequeue, hdue, hperm⟩⟩ :=
    dequeue.spec s.queue now tenant_id queue_name
  · rw [hdequeue]
    generalize queue_key tenant_id queue_name = key at hscan ⊢
    refine kept_quiet h (Nat.le_refl _) ?_ rfl
    intro k id
    rw [pendingOf_set]
    split
    · rename_i hk
      subst hk
      have hpend := (h.placed id).pending k
      rw [hpend]
      refine eq_of_perm_pendingAt ?_
      rw [← hpend]
      exact hscan.filter _
    · rfl
  · rw [hdequeue]
    generalize queue_key tenant_id queue_name = key at hperm ⊢
    have hplaced := h.placed msg.message_id
    obtain ⟨hwait, hown⟩ := place_of_mem hplaced (hperm.subset List.mem_cons_self)
    have hlast : (placeOf s.log msg.message_id).msg? = some msg := by rw [hwait]; rfl
    obtain ⟨e0, hlast, hmsg0, _⟩ := last_of_place hlast
    have hin0 := (List.mem_filter.1 (List.mem_of_getLast? hlast)).1
    refine kept_event h (Nat.le_refl _) (hmsg0 ▸ h.drawn e0 hin0) ?_ ⟨fun k => ?_, ?_⟩ ?_ ?_
    · simp only [Event.id, Event.msg, hwait]
      exact Move.deliver now msg hdue
    · simp only [Event.id, Event.msg, Event.place, Place.pendingAt, pendingOf_set]
      have hpend := hplaced.pending
      simp only [hwait, Place.pendingAt] at hpend
      split
      · have hf := hperm.filter (fun m => m.message_id = msg.message_id)
        have hkey := hpend key
        unfold pendingOf at hkey
        rw [List.filter_cons_of_pos (by simp), hkey, if_pos hown] at hf
        exact List.perm_nil.1 ((List.perm_cons msg).1 hf)
      · rename_i hk
        rw [hpend k, if_neg (hown ▸ hk)]
    · simp [Event.id, Event.msg, Event.place, Place.inflight?]
    · intro k id hid
      rw [pendingOf_set]
      split
      · rename_i hk
        subst hk
        have hpend := (h.placed id).pending k
        rw [hpend]
        refine eq_of_perm_pendingAt ?_
        rw [← hpend]
        have hf := hperm.filter (fun m => m.message_id = id)
        rwa [List.filter_cons_of_neg (by simpa [Event.id, Event.msg] using Ne.symm hid)] at hf
      · rfl
    · intro id hid
      exact Function.update_of_ne hid _ _

/-- A held message was drawn, so every event about it is. -/
theorem place_of_inflight {uuid4 : Uuid4} {s : Session} {id : String} {msg : QueueMessage}
    (h : Kept uuid4 s) (hin : s.queue.inflight id = some msg) :
    placeOf s.log id = .held msg ∧ msg.message_id = id ∧
      ∃ n < s.draws, id = "msg_" ++ uuid4.hex12 n := by
  have hplace : placeOf s.log id = .held msg := by
    have := (h.placed id).inflight
    rw [hin] at this
    generalize placeOf s.log id = p at this
    cases p with
    | held m =>
      simp only [Place.inflight?, Option.some.injEq] at this
      rw [this]
    | _ => simp [Place.inflight?] at this
  have hlast : (placeOf s.log id).msg? = some msg := by rw [hplace]; rfl
  have hid := id_of_place hlast
  obtain ⟨e0, hlast, hmsg0, _⟩ := last_of_place hlast
  have hin0 := (List.mem_filter.1 (List.mem_of_getLast? hlast)).1
  obtain ⟨n, hn, hdrawn⟩ := h.drawn e0 hin0
  refine ⟨hplace, hid, n, hn, ?_⟩
  rw [← hid, ← hmsg0]
  exact hdrawn

theorem pending_of_held {q : InMemoryQueueBackend} {id : String} {msg : QueueMessage}
    (h : Placed q id (.held msg)) (key : String) : pendingOf q key id = [] := h.pending key

theorem kept_ack {uuid4 : Uuid4} {s : Session} (h : Kept uuid4 s) (now : Int)
    (tenant_id message_id : String) :
    Kept uuid4 (call uuid4 s now (.ack tenant_id message_id)) := by
  simp only [call, ack]
  rcases hin : s.queue.inflight message_id with _ | msg
  · exact h
  · by_cases howner : msg.tenant_id = tenant_id
    · subst howner
      simp only [ne_eq, not_true_eq_false, if_false]
      obtain ⟨hplace, hid, hdrawn⟩ := place_of_inflight h hin
      subst hid
      have hplaced := h.placed msg.message_id
      rw [hplace] at hplaced
      refine kept_event h (Nat.le_refl _) (by exact hdrawn) ?_ ⟨fun key => ?_, ?_⟩
        (fun _ _ _ => rfl) ?_
      · simp only [Event.id, Event.msg, hplace]
        exact Move.ack msg
      · exact pending_of_held hplaced key
      · simp [Event.id, Event.msg, Event.place, Place.inflight?]
      · intro id hid
        exact Function.update_of_ne hid _ _
    · simp only [howner, ne_eq, not_false_eq_true, if_true]
      exact h

theorem kept_nack {uuid4 : Uuid4} {s : Session} (h : Kept uuid4 s) (now : Int)
    (tenant_id message_id : String) (requeue : Bool) (delay_ms : Int) :
    Kept uuid4 (call uuid4 s now (.nack tenant_id message_id requeue delay_ms)) := by
  simp only [call, nack]
  rcases hin : s.queue.inflight message_id with _ | msg
  · exact h
  · by_cases howner : msg.tenant_id = tenant_id
    · subst howner
      simp only [ne_eq, not_true_eq_false, if_false]
      obtain ⟨hplace, hid, hdrawn⟩ := place_of_inflight h hin
      subst hid
      have hplaced := h.placed msg.message_id
      rw [hplace] at hplaced
      cases requeue with
      | false =>
        refine kept_event h (Nat.le_refl _) (by exact hdrawn) ?_ ⟨fun key => ?_, ?_⟩
          (fun _ _ _ => rfl) ?_
        · simp only [Event.id, Event.msg, hplace]
          exact Move.nack msg false _
        · exact pending_of_held hplaced key
        · simp [Event.id, Event.msg, Event.place, Place.inflight?]
        · intro id hid
          exact Function.update_of_ne hid _ _
      | true =>
        refine kept_event h (Nat.le_refl _) (by exact hdrawn) ?_ ⟨fun key => ?_, ?_⟩ ?_ ?_
        · simp only [Event.id, Event.msg, hplace]
          exact Move.nack msg true _
        · have hnone := pending_of_held hplaced
          simp only [Event.id, Event.msg, Event.place, Place.pendingAt]
          rw [pendingOf_set]
          split
          · have hown := hnone (queue_key msg.tenant_id msg.queue_name)
            unfold pendingOf at hown
            simp [hown]
          · exact hnone key
        · simp [Event.id, Event.msg, Event.place, Place.inflight?]
        · intro key id hid
          rw [pendingOf_set]
          split
          · rename_i hk
            subst hk
            rw [List.filter_cons_of_neg (by simpa [Event.id, Event.msg] using Ne.symm hid)]
            rfl
          · rfl
        · intro id hid
          exact Function.update_of_ne hid _ _
    · simp only [howner, ne_eq, not_false_eq_true, if_true]
      exact kept_quiet h (Nat.le_refl _) (fun _ _ => rfl) (update_back hin)

theorem kept_call {uuid4 : Uuid4} {s : Session} (h : Kept uuid4 s) (now : Int) (op : Op) :
    Kept uuid4 (call uuid4 s now op) := by
  cases op with
  | enqueue tenant_id queue_name payload available_at => exact kept_enqueue h now _ _ _ _
  | dequeue tenant_id queue_name => exact kept_dequeue h now _ _
  | ack tenant_id message_id => exact kept_ack h now _ _
  | nack tenant_id message_id requeue delay_ms => exact kept_nack h now _ _ _ _

theorem kept_run (uuid4 : Uuid4) (calls : List (Int × Op)) : Kept uuid4 (run uuid4 calls) := by
  induction calls using List.reverseRecOn with
  | nil => exact kept_start uuid4
  | append_singleton calls c ih =>
    unfold run at ih ⊢
    rw [List.foldl_append]
    exact kept_call ih c.1 c.2

/-! ## The laws -/

/-- A call that the caller may not make, or that names no message in
flight. -/
def NotOwner (q : InMemoryQueueBackend) (tenant_id message_id : String) : Prop :=
  ∀ msg, q.inflight message_id = some msg → msg.tenant_id ≠ tenant_id

theorem ack_unchanged {q : InMemoryQueueBackend} {tenant_id message_id : String}
    (h : NotOwner q tenant_id message_id) : (ack q tenant_id message_id).1 = q := by
  unfold ack
  split
  · rfl
  · rename_i msg hin
    rw [if_pos (h msg hin)]

theorem nack_unchanged {q : InMemoryQueueBackend} {tenant_id message_id : String} (now : Int)
    (requeue : Bool) (delay_ms : Int) (h : NotOwner q tenant_id message_id) :
    (nack q now tenant_id message_id requeue delay_ms).1 = q := by
  unfold nack
  split
  · rfl
  · rename_i msg hin
    simp only [if_pos (h msg hin), update_back hin]

/-- How many times a message is finished in a log. -/
def finishesOf (log : List Event) (id : String) : Nat :=
  (eventsOf log id).countP Event.finishes

theorem finishesOf_eq {log : List Event} (h : Legal log) (id : String) :
    finishesOf log id = match placeOf log id with | .finished => 1 | _ => 0 := by
  induction h with
  | nil => rfl
  | @snoc log last _ hm ih =>
    unfold finishesOf at ih ⊢
    rw [eventsOf_snoc, placeOf_snoc]
    by_cases hid : last.id = id
    · subst hid
      rw [if_pos rfl, if_pos rfl, List.countP_append, ih]
      generalize placeOf log last.id = p at hm
      cases hm with
      | nack msg requeue available_at => cases requeue <;> simp [Event.finishes, Event.place]
      | _ => simp [Event.finishes, Event.place]
    · rw [if_neg hid, if_neg hid, ih]

/-- An enqueued message is somewhere from then on. -/
theorem place_of_enqueued {log : List Event} {msg : QueueMessage} (hin : .enqueued msg ∈ log) :
    placeOf log msg.message_id ≠ .nowhere := by
  intro h
  have hnil := eventsOf_of_nowhere h
  have : Event.enqueued msg ∈ eventsOf log msg.message_id :=
    List.mem_filter.2 ⟨hin, decide_eq_true rfl⟩
  simp [hnil] at this

/-- A message that waits or is held follows from its enqueued record. -/
theorem follows_of_place {log : List Event} (h : Legal log) {first msg : QueueMessage}
    (hfirst : .enqueued first ∈ log) (hplace : (placeOf log first.message_id).msg? = some msg) :
    Follows first (requeuesOf log first.message_id) msg := by
  obtain ⟨e, hlast, hmsg, _⟩ := last_of_place hplace
  rw [← nacks_are_requeues h first.message_id (by simp [hplace]), ← hmsg]
  exact follows_last h first hfirst e hlast

/-- How many copies of a message the queue has at its own key, and in
flight. -/
def copiesOf (q : InMemoryQueueBackend) (msg : QueueMessage) : Nat :=
  (pendingOf q (queue_key msg.tenant_id msg.queue_name) msg.message_id).length +
    (q.inflight msg.message_id).toList.length

theorem one_place {uuid4 : Uuid4} {s : Session} (h : Kept uuid4 s) {first : QueueMessage}
    (hfirst : .enqueued first ∈ s.log) :
    copiesOf s.queue first + finishesOf s.log first.message_id = 1 ∧
      ∀ key, key ≠ queue_key first.tenant_id first.queue_name →
        pendingOf s.queue key first.message_id = [] := by
  obtain ⟨hpend, hinfl⟩ := h.placed first.message_id
  have hsome := place_of_enqueued hfirst
  have hfollows := fun msg (hp : (placeOf s.log first.message_id).msg? = some msg) =>
    follows_of_place h.legal hfirst hp
  unfold copiesOf
  rw [hinfl, finishesOf_eq h.legal]
  simp only [hpend]
  generalize placeOf s.log first.message_id = p at hsome hfollows
  cases p with
  | nowhere => exact absurd rfl hsome
  | waiting msg =>
    obtain ⟨h1, h2, _⟩ := hfollows msg rfl
    simp only [Place.pendingAt, Place.inflight?, h1, h2]
    refine ⟨by simp, fun key hkey => if_neg hkey⟩
  | held msg => simp [Place.pendingAt, Place.inflight?]
  | finished => simp [Place.pendingAt, Place.inflight?]

theorem attempt_of_pending {uuid4 : Uuid4} {s : Session} (h : Kept uuid4 s)
    {first msg : QueueMessage} {key : String} (hfirst : .enqueued first ∈ s.log)
    (hin : msg ∈ pendingOf s.queue key first.message_id) :
    msg.attempt = first.attempt + requeuesOf s.log first.message_id := by
  rw [(h.placed first.message_id).pending key] at hin
  refine (follows_of_place h.legal hfirst ?_).attempt
  generalize placeOf s.log first.message_id = p at hin
  cases p with
  | waiting m =>
    simp only [Place.pendingAt] at hin
    split at hin
    · rw [List.mem_singleton.1 hin]
      rfl
    · simp at hin
  | _ => simp [Place.pendingAt] at hin

theorem attempt_of_inflight {uuid4 : Uuid4} {s : Session} (h : Kept uuid4 s)
    {first msg : QueueMessage} (hfirst : .enqueued first ∈ s.log)
    (hin : s.queue.inflight first.message_id = some msg) :
    msg.attempt = first.attempt + requeuesOf s.log first.message_id := by
  obtain ⟨hplace, _⟩ := place_of_inflight h hin
  exact (follows_of_place h.legal hfirst (by rw [hplace]; rfl)).attempt

end bid_evaluation.queue_backend
