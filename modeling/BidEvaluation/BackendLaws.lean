-- The in-memory queue against the SQLite queue, call by call. The deques hold
-- the messages of the pending rows, in an order of their own: a nacked message
-- goes to the front and one that is not due to the back, where SQLite keeps
-- the order of creation.
import BidEvaluation.Lib.Lockstep
import BidEvaluation.QueueLaws
import BidEvaluation.SqliteQueue

open dict_lib lockstep bid_evaluation.values bid_evaluation.queue_backend
  bid_evaluation.sqlite_queue

namespace bid_evaluation.backend_laws

/-! ## The backends -/

/-- The calls of a queue. `enqueue` also gets the draw of its message id. -/
structure Backend (σ : Type) where
  new : σ
  enqueue : σ → Int → String → String → String → PyDict → Option Int →
    σ × Except PyErr QueueMessage
  dequeue : σ → Int → String → String → σ × Option QueueMessage
  ack : σ → String → String → σ × Except PyErr Unit
  nack : σ → Int → String → String → Bool → Int → σ × Except PyErr (Option QueueMessage)
  pending_count : σ → String → String → Nat

def in_memory : Backend InMemoryQueueBackend where
  new := queue_backend.new
  enqueue := queue_backend.enqueue
  dequeue := queue_backend.dequeue
  ack := queue_backend.ack
  nack := queue_backend.nack
  pending_count := queue_backend.pending_count

def sqlite : Backend Rows where
  new := []
  enqueue := sqlite_queue.enqueue
  dequeue := sqlite_queue.dequeue
  ack := sqlite_queue.ack
  nack := sqlite_queue.nack
  pending_count := sqlite_queue.pending_count

/-- What a call returns or raises. -/
abbrev Reply := Except PyErr (Option QueueMessage)

variable {σ : Type}

/-- One call at a clock reading. The backends draw the same message ids. -/
def Backend.serve (b : Backend σ) (uuid4 : Uuid4) (s : σ × Nat) (now : Int) :
    Op → (σ × Nat) × Reply
  | .enqueue tenant_id queue_name payload available_at =>
    let (q, r) := b.enqueue s.1 now (uuid4.hex12 s.2) tenant_id queue_name payload available_at
    ((q, s.2 + 1), r.map some)
  | .dequeue tenant_id queue_name =>
    let (q, r) := b.dequeue s.1 now tenant_id queue_name
    ((q, s.2), .ok r)
  | .ack tenant_id message_id =>
    let (q, r) := b.ack s.1 tenant_id message_id
    ((q, s.2), r.map fun _ => none)
  | .nack tenant_id message_id requeue delay_ms =>
    let (q, r) := b.nack s.1 now tenant_id message_id requeue delay_ms
    ((q, s.2), r)

/-- After each call an observer sees the reply, and how many messages are
pending for each used pair of a tenant and a queue. -/
def Backend.machine (b : Backend σ) (uuid4 : Uuid4) (used : Set (String × String)) :
    Machine (σ × Nat) (Int × Op) (Reply × (used → Nat)) where
  start := (b.new, 0)
  step s call :=
    let (s', reply) := b.serve uuid4 s call.1 call.2
    (s', reply, fun p => b.pending_count s'.1 p.1.1 p.1.2)

/-! ## What comes first -/

theorem scan_finds (now : Int) {left : Nat} {queue : List QueueMessage}
    (h : left ≤ queue.length) :
    (scan now left queue).1 = (queue.take left).find? (is_available now) := by
  induction left generalizing queue with
  | zero => rfl
  | succ left ih =>
    cases queue with
    | nil => simp at h
    | cons msg rest =>
      rw [List.length_cons, Nat.add_le_add_iff_right] at h
      by_cases hdue : is_available now msg = true
      · simp [scan, hdue]
      · have hrest : left ≤ (rest ++ [msg]).length := by
          rw [List.length_append]
          omega
        simp only [scan, hdue, Bool.false_eq_true, if_false, List.take_succ_cons, List.find?_cons]
        rw [ih hrest, List.take_append_of_le_length h]

/-- The first message of a deque that is due. -/
def first_due (now : Int) (queue : List QueueMessage) : Option QueueMessage :=
  queue.find? (is_available now)

/-- A dequeue takes the first message that is due, and may change the order
of the others. -/
theorem dequeue_takes (q : InMemoryQueueBackend) (now : Int) (tenant_id queue_name : String) :
    ∃ left, match first_due now (q.deque (queue_key tenant_id queue_name)) with
      | none => left.Perm (q.deque (queue_key tenant_id queue_name)) ∧
          queue_backend.dequeue q now tenant_id queue_name =
            ({ q with queues := q.queues.set (queue_key tenant_id queue_name) left }, none)
      | some msg => (msg :: left).Perm (q.deque (queue_key tenant_id queue_name)) ∧
          queue_backend.dequeue q now tenant_id queue_name =
            ({ queues := q.queues.set (queue_key tenant_id queue_name) left
               inflight := Function.update q.inflight msg.message_id (some msg) }, some msg) := by
  generalize hkey : queue_key tenant_id queue_name = key
  have hfirst := scan_finds now (Nat.le_refl (q.deque key).length)
  rw [List.take_length] at hfirst
  have hscan := scan.spec now (q.deque key).length (q.deque key)
  unfold first_due queue_backend.dequeue
  dsimp only
  rw [← hfirst, hkey]
  generalize scan now (q.deque key).length (q.deque key) = result at hscan ⊢
  rcases result with ⟨_ | msg, left⟩
  · exact ⟨left, hscan, rfl⟩
  · exact ⟨left, hscan.2, rfl⟩

theorem deque_mk (q : InMemoryQueueBackend) (inflight : String → Option QueueMessage)
    (key k : String) (l : List QueueMessage) :
    InMemoryQueueBackend.deque ⟨q.queues.set key l, inflight⟩ k = if k = key then l else q.deque k :=
  deque_set q key k l

/-! ## A table that is filled in order -/

variable {uuid4 : Uuid4} {used : Set (String × String)}

/-- The id was drawn before another one. -/
def Older (uuid4 : Uuid4) (id id' : String) : Prop :=
  ∃ i j, i < j ∧ id = "msg_" ++ uuid4.hex12 i ∧ id' = "msg_" ++ uuid4.hex12 j

theorem ticket_inj {i j : Nat} (h : "msg_" ++ uuid4.hex12 i = "msg_" ++ uuid4.hex12 j) : i = j :=
  uuid4.distinct ((String.append_right_inj _).1 h)

theorem Older.asymm {id id' : String} (h : Older uuid4 id id') : ¬ Older uuid4 id' id := by
  obtain ⟨i, j, hij, rfl, rfl⟩ := h
  rintro ⟨i', j', hij', hi, hj⟩
  have := ticket_inj hi
  have := ticket_inj hj
  omega

theorem Older.ne {id id' : String} (h : Older uuid4 id id') : id ≠ id' := by
  rintro rfl
  exact h.asymm h

/-- A pair that shares its key with no other used pair. -/
def Alone (used : Set (String × String)) (tenant_id queue_name : String) : Prop :=
  ∀ p ∈ used, queue_key p.1 p.2 = queue_key tenant_id queue_name → p = (tenant_id, queue_name)

/-- The rows of a table that was filled in order, from pairs that have their
keys for themselves. -/
structure Filled (uuid4 : Uuid4) (used : Set (String × String)) (before : List (Int × Op))
    (draws : Nat) (stamps : List Stamp) : Prop where
  order : stamps.Pairwise fun a b =>
    a.created_at < b.created_at ∧ Older uuid4 a.message_id b.message_id
  drawn : ∀ a ∈ stamps, ∃ n < draws, a.message_id = "msg_" ++ uuid4.hex12 n
  past : ∀ a ∈ stamps, ∃ call ∈ before, a.created_at = call.1
  alone : ∀ a ∈ stamps, Alone used a.tenant_id a.queue_name

variable {before : List (Int × Op)} {draws : Nat}

theorem Filled.sublist {stamps stamps' : List Stamp} (h : Filled uuid4 used before draws stamps)
    (hsub : List.Sublist stamps' stamps) : Filled uuid4 used before draws stamps' where
  order := h.order.sublist hsub
  drawn a ha := h.drawn a (hsub.subset ha)
  past a ha := h.past a (hsub.subset ha)
  alone a ha := h.alone a (hsub.subset ha)

theorem Filled.later {stamps : List Stamp} (h : Filled uuid4 used before draws stamps)
    (call : Int × Op) : Filled uuid4 used (before ++ [call]) draws stamps where
  order := h.order
  drawn := h.drawn
  past a ha := by
    obtain ⟨c, hc, heq⟩ := h.past a ha
    exact ⟨c, List.mem_append_left _ hc, heq⟩
  alone := h.alone

theorem Filled.more {stamps : List Stamp} (h : Filled uuid4 used before draws stamps) :
    Filled uuid4 used before (draws + 1) stamps where
  order := h.order
  drawn a ha := by
    obtain ⟨n, hn, hid⟩ := h.drawn a ha
    exact ⟨n, Nat.lt_succ_of_lt hn, hid⟩
  past := h.past
  alone := h.alone

/-- A new row comes last. -/
theorem Filled.insert {stamps : List Stamp} {tenant_id queue_name : String}
    (h : Filled uuid4 used before draws stamps) (call : Int × Op)
    (hnow : ∀ c ∈ before, c.1 < call.1) (halone : Alone used tenant_id queue_name) :
    Filled uuid4 used (before ++ [call]) (draws + 1)
      (stamps ++ [⟨"msg_" ++ uuid4.hex12 draws, tenant_id, queue_name, call.1⟩]) where
  order := by
    refine List.pairwise_append.2 ⟨h.order, List.pairwise_singleton _ _, ?_⟩
    intro a ha b hb
    rw [List.mem_singleton.1 hb]
    obtain ⟨c, hc, hcreated⟩ := h.past a ha
    obtain ⟨n, hn, hid⟩ := h.drawn a ha
    exact ⟨hcreated ▸ hnow c hc, n, draws, hn, hid, rfl⟩
  drawn a ha := by
    rcases List.mem_append.1 ha with hin | hin
    · obtain ⟨n, hn, hid⟩ := h.drawn a hin
      exact ⟨n, Nat.lt_succ_of_lt hn, hid⟩
    · exact ⟨draws, Nat.lt_succ_self _, by rw [List.mem_singleton.1 hin]⟩
  past a ha := by
    rcases List.mem_append.1 ha with hin | hin
    · exact (h.later call).past a hin
    · exact ⟨call, by simp, by rw [List.mem_singleton.1 hin]⟩
  alone a ha := by
    rcases List.mem_append.1 ha with hin | hin
    · exact h.alone a hin
    · rw [List.mem_singleton.1 hin]
      exact halone

/-- The name of a row stands in its place alone. -/
structure Place (rows : Rows) (row : Row) (pre post : Rows) : Prop where
  split : rows = pre ++ row :: post
  pre_ne : ∀ r ∈ pre, r.message_id ≠ row.message_id
  post_ne : ∀ r ∈ post, r.message_id ≠ row.message_id

theorem Filled.place {rows : Rows} (h : Filled uuid4 used before draws (rows.map Row.stamp))
    {row : Row} (hrow : row ∈ rows) : ∃ pre post, Place rows row pre post := by
  obtain ⟨pre, post, rfl⟩ := List.append_of_mem hrow
  have horder := h.order
  rw [List.map_append, List.map_cons, List.pairwise_append] at horder
  obtain ⟨-, hcons, hacross⟩ := horder
  refine ⟨pre, post, rfl, fun r hr => ?_, fun r hr => ?_⟩
  · exact (hacross _ (List.mem_map_of_mem hr) _ List.mem_cons_self).2.ne
  · exact ((List.pairwise_cons.1 hcons).1 _ (List.mem_map_of_mem hr)).2.ne.symm

/-! ## One row -/

/-- The row waits under the key. -/
def waits (key : String) (row : Row) : Bool :=
  row.status = .pending && queue_key row.tenant_id row.queue_name = key

/-- The messages of the rows that wait under a key, oldest first. -/
def waiting (rows : Rows) (key : String) : List QueueMessage :=
  (rows.filter (waits key)).map Row.message

section place

variable {rows pre post : Rows} {row : Row}

/-- The message of a row, if it waits under the key. -/
def waitingOf (key : String) (row : Row) : List QueueMessage :=
  if waits key row then [row.message] else []

theorem waiting_split (key : String) (pre post : Rows) (row : Row) :
    (waiting (pre ++ row :: post) key).Perm (waitingOf key row ++ waiting (pre ++ post) key) := by
  unfold waiting waitingOf
  rw [List.filter_append, List.filter_append, List.filter_cons]
  by_cases h : waits key row = true
  · simp only [h, if_true, List.map_append, List.map_cons, List.singleton_append]
    exact List.perm_middle
  · simp [h]

theorem waiting_concat (key : String) (rows : Rows) (row : Row) :
    waiting (rows ++ [row]) key = waiting rows key ++ waitingOf key row := by
  unfold waiting waitingOf
  rw [List.filter_append, List.map_append]
  congr 1
  by_cases h : waits key row = true <;> simp [h]

theorem Place.no_inflight (h : Place rows row pre post) :
    select_inflight (pre ++ post) row.message_id = none := by
  unfold select_inflight
  rw [List.find?_eq_none]
  intro r hr hfound
  simp only [Bool.and_eq_true, decide_eq_true_eq] at hfound
  rcases List.mem_append.1 hr with hin | hin
  · exact h.pre_ne r hin hfound.1
  · exact h.post_ne r hin hfound.1

/-- A row is in flight under its own name only. -/
theorem select_inflight_split (pre post : Rows) (row : Row) (message_id : String)
    (hno : select_inflight (pre ++ post) row.message_id = none) :
    select_inflight (pre ++ row :: post) message_id =
      if message_id = row.message_id then (if row.status = .inflight then some row else none)
      else select_inflight (pre ++ post) message_id := by
  unfold select_inflight at *
  rw [List.find?_append, Option.or_eq_none_iff] at hno
  rw [List.find?_append, List.find?_append, List.find?_cons]
  by_cases hid : message_id = row.message_id
  · subst hid
    rw [hno.1, hno.2]
    by_cases hstatus : row.status = .inflight <;> simp [hstatus]
  · have hne : ¬ row.message_id = message_id := fun h => hid h.symm
    simp [hid, hne]

end place

/-! ## Both backends at once -/

/-- The deques hold the messages of the rows that wait, in any order, and
the same messages are in flight. -/
structure Related (uuid4 : Uuid4) (used : Set (String × String)) (before : List (Int × Op))
    (s : InMemoryQueueBackend × Nat) (t : Rows × Nat) : Prop where
  draws : t.2 = s.2
  deques : ∀ key, (s.1.deque key).Perm (waiting t.1 key)
  inflight : ∀ id, s.1.inflight id = (select_inflight t.1 id).map Row.message
  filled : Filled uuid4 used before t.2 (t.1.map Row.stamp)

theorem related_start (uuid4 : Uuid4) (used : Set (String × String)) :
    Related uuid4 used [] (in_memory.new, 0) (sqlite.new, 0) where
  draws := rfl
  deques key := List.Perm.refl _
  inflight id := rfl
  filled := ⟨List.Pairwise.nil, by simp [sqlite], by simp [sqlite], by simp [sqlite]⟩

section related

variable {q q' : InMemoryQueueBackend} {rows pre post : Rows} {row row' : Row} {d : Nat}

theorem Related.later (h : Related uuid4 used before (q, d) (rows, d)) (call : Int × Op) :
    Related uuid4 used (before ++ [call]) (q, d) (rows, d) :=
  ⟨h.draws, h.deques, h.inflight, h.filled.later call⟩

theorem Related.place (h : Related uuid4 used before (q, d) (rows, d)) (hrow : row ∈ rows) :
    ∃ pre post, Place rows row pre post := h.filled.place hrow

/-- Every message of a deque, but for that of the row, belongs to another
row. -/
theorem Related.others (h : Related uuid4 used before (q, d) (rows, d))
    (hplace : Place rows row pre post) (key : String) :
    (q.deque key).Perm (waitingOf key row ++ waiting (pre ++ post) key) := by
  have hdeque := h.deques key
  rw [hplace.split] at hdeque
  exact hdeque.trans (waiting_split key pre post row)

theorem Related.inflight_of (h : Related uuid4 used before (q, d) (rows, d))
    (hplace : Place rows row pre post) {id : String} (hid : id ≠ row.message_id) :
    q.inflight id = (select_inflight (pre ++ post) id).map Row.message := by
  rw [h.inflight, hplace.split, select_inflight_split pre post row id hplace.no_inflight,
    if_neg hid]

/-- One row is set, and what its message is in memory. -/
theorem Related.change (h : Related uuid4 used before (q, d) (rows, d)) (call : Int × Op)
    (hplace : Place rows row pre post) (hstamp : row'.stamp = row.stamp)
    (hdeques : ∀ key, (q'.deque key).Perm (waitingOf key row' ++ waiting (pre ++ post) key))
    (hown : q'.inflight row.message_id =
      if row'.status = .inflight then some row'.message else none)
    (hothers : ∀ id, id ≠ row.message_id → q'.inflight id = q.inflight id) :
    Related uuid4 used (before ++ [call]) (q', d) (pre ++ row' :: post, d) where
  draws := rfl
  deques key := (hdeques key).trans (waiting_split key pre post row').symm
  inflight id := by
    have hid : row'.message_id = row.message_id := congrArg Stamp.message_id hstamp
    have hno : select_inflight (pre ++ post) row'.message_id = none := by
      rw [hid]
      exact hplace.no_inflight
    rw [select_inflight_split pre post row' id hno, hid]
    split
    · rename_i heq
      rw [heq, hown]
      split <;> rfl
    · rename_i hne
      rw [hothers id hne]
      exact h.inflight_of hplace hne
  filled := by
    have hstamps : (pre ++ row' :: post).map Row.stamp = rows.map Row.stamp := by
      rw [hplace.split, List.map_append, List.map_append, List.map_cons, List.map_cons, hstamp]
    rw [hstamps]
    exact h.filled.later call

/-- One row that does not wait is deleted. -/
theorem Related.drop (h : Related uuid4 used before (q, d) (rows, d)) (call : Int × Op)
    (hplace : Place rows row pre post) (hstatus : row.status ≠ .pending) :
    Related uuid4 used (before ++ [call])
      ({ q with inflight := Function.update q.inflight row.message_id none }, d)
      (pre ++ post, d) where
  draws := rfl
  deques key := by
    have hothers := h.others hplace key
    have hnone : waitingOf key row = [] := by simp [waitingOf, waits, hstatus]
    rw [hnone, List.nil_append] at hothers
    exact hothers
  inflight id := by
    by_cases hid : id = row.message_id
    · subst hid
      show Function.update q.inflight row.message_id none row.message_id = _
      rw [Function.update_self, hplace.no_inflight]
      rfl
    · show Function.update q.inflight row.message_id none id = _
      rw [Function.update_of_ne hid]
      exact h.inflight_of hplace hid
  filled := by
    refine (h.filled.later call).sublist (List.Sublist.map _ ?_)
    rw [hplace.split]
    exact List.Sublist.append_left (List.sublist_cons_self row post) pre

/-- A used pair with the key of a row is its pair. -/
theorem Filled.pair_iff (h : Filled uuid4 used before d (rows.map Row.stamp)) (hrow : row ∈ rows)
    {tenant_id queue_name : String} (hp : (tenant_id, queue_name) ∈ used) :
    queue_key row.tenant_id row.queue_name = queue_key tenant_id queue_name ↔
      row.tenant_id = tenant_id ∧ row.queue_name = queue_name := by
  constructor
  · intro hkey
    have hpair := h.alone row.stamp (List.mem_map_of_mem hrow) _ hp hkey.symm
    exact ⟨(congrArg Prod.fst hpair).symm, (congrArg Prod.snd hpair).symm⟩
  · rintro ⟨rfl, rfl⟩
    rfl

theorem Related.counts {s : InMemoryQueueBackend × Nat} {t : Rows × Nat}
    (h : Related uuid4 used before s t) {tenant_id queue_name : String}
    (hp : (tenant_id, queue_name) ∈ used) :
    in_memory.pending_count s.1 tenant_id queue_name =
      sqlite.pending_count t.1 tenant_id queue_name := by
  show (s.1.deque (queue_key tenant_id queue_name)).length = _
  rw [(h.deques _).length_eq]
  show ((t.1.filter (waits (queue_key tenant_id queue_name))).map Row.message).length = _
  rw [List.length_map]
  show _ = (t.1.filter _).length
  congr 1
  refine List.filter_congr fun r hr => ?_
  have hiff := h.filled.pair_iff hr hp
  unfold waits
  rw [Bool.eq_iff_iff]
  simp only [Bool.and_eq_true, decide_eq_true_eq, hiff]
  exact and_comm

theorem Related.mem_deque_iff (h : Related uuid4 used before (q, d) (rows, d))
    {tenant_id queue_name : String} (hp : (tenant_id, queue_name) ∈ used) {msg : QueueMessage} :
    msg ∈ q.deque (queue_key tenant_id queue_name) ↔
      ∃ r ∈ rows, r.status = .pending ∧ r.tenant_id = tenant_id ∧ r.queue_name = queue_name ∧
        r.message = msg := by
  rw [(h.deques _).mem_iff]
  show msg ∈ (rows.filter (waits _)).map Row.message ↔ _
  simp only [List.mem_map, List.mem_filter]
  constructor
  · rintro ⟨r, ⟨hr, hwaits⟩, hmsg⟩
    unfold waits at hwaits
    rw [Bool.and_eq_true, decide_eq_true_eq, decide_eq_true_eq, h.filled.pair_iff hr hp] at hwaits
    exact ⟨r, hr, hwaits.1, hwaits.2.1, hwaits.2.2, hmsg⟩
  · rintro ⟨r, hr, hstatus, htenant, hqueue, hmsg⟩
    refine ⟨r, ⟨hr, ?_⟩, hmsg⟩
    unfold waits
    rw [Bool.and_eq_true, decide_eq_true_eq, decide_eq_true_eq, h.filled.pair_iff hr hp]
    exact ⟨hstatus, htenant, hqueue⟩

/-- The `SELECT` gives the due message that was enqueued first. -/
theorem Related.select_spec (h : Related uuid4 used before (q, d) (rows, d)) (now : Int)
    {tenant_id queue_name : String} (hp : (tenant_id, queue_name) ∈ used) :
    match select_next rows now tenant_id queue_name with
    | none => ∀ msg ∈ q.deque (queue_key tenant_id queue_name), is_available now msg ≠ true
    | some r => r ∈ rows ∧ r.status = .pending ∧ is_available now r.message = true ∧
        r.message ∈ q.deque (queue_key tenant_id queue_name) ∧
        ∀ msg ∈ q.deque (queue_key tenant_id queue_name), is_available now msg = true →
          msg = r.message ∨ Older uuid4 r.message_id msg.message_id := by
  have hnext : ∀ r, is_next now tenant_id queue_name r = true ↔ r.tenant_id = tenant_id ∧
      r.queue_name = queue_name ∧ r.status = .pending ∧ is_available now r.message = true := by
    intro r
    simp [is_next, is_available, Row.message, and_assoc]
  have horder : rows.Pairwise fun a b =>
      a.created_at < b.created_at ∧ Older uuid4 a.message_id b.message_id :=
    List.pairwise_map.1 h.filled.order
  have hdue := horder.filter (is_next now tenant_id queue_name)
  have hsorted : (rows.filter (is_next now tenant_id queue_name)).insertionSort (row_le · ·) =
      rows.filter (is_next now tenant_id queue_name) := by
    refine List.Pairwise.insertionSort_eq (hdue.imp fun hab => ?_)
    simp [row_le, hab.1]
  have hin : ∀ msg ∈ q.deque (queue_key tenant_id queue_name), is_available now msg = true →
      ∃ r ∈ rows.filter (is_next now tenant_id queue_name), r.message = msg := by
    intro msg hmsg havailable
    obtain ⟨r, hr, hstatus, htenant, hqueue, rfl⟩ := (h.mem_deque_iff hp).1 hmsg
    exact ⟨r, List.mem_filter.2 ⟨hr, (hnext r).2 ⟨htenant, hqueue, hstatus, havailable⟩⟩, rfl⟩
  unfold select_next
  rw [hsorted]
  rcases hrows : rows.filter (is_next now tenant_id queue_name) with _ | ⟨first, rest⟩
  · rw [hrows] at hin
    intro msg hmsg havailable
    obtain ⟨r, hr, -⟩ := hin msg hmsg havailable
    cases hr
  · rw [hrows] at hin hdue
    have hfirst : first ∈ rows.filter (is_next now tenant_id queue_name) := by simp [hrows]
    obtain ⟨hrow, his⟩ := List.mem_filter.1 hfirst
    obtain ⟨htenant, hqueue, hstatus, havailable⟩ := (hnext first).1 his
    refine ⟨hrow, hstatus, havailable,
      (h.mem_deque_iff hp).2 ⟨first, hrow, hstatus, htenant, hqueue, rfl⟩, ?_⟩
    intro msg hmsg havailable'
    obtain ⟨r, hr, rfl⟩ := hin msg hmsg havailable'
    rcases List.mem_cons.1 hr with heq | hr
    · exact .inl (congrArg Row.message heq)
    · exact .inr ((List.pairwise_cons.1 hdue).1 r hr).2

/-! ## One call -/

/-- What a call needs so that the backends agree on it, in the state of the
in-memory queue before it: a count that SQLite can store, a pair with a key of
its own, and no due message that is older than the first due one. -/
def Fine (uuid4 : Uuid4) (used : Set (String × String)) (s : InMemoryQueueBackend × Nat) :
    Int × Op → Prop
  | (_, .enqueue tenant_id queue_name payload _) =>
    ∀ attempt, (PyDict.getD payload "attempt" (.int 0)).toInt = .ok attempt →
      Fits attempt ∧ Alone used tenant_id queue_name
  | (now, .dequeue tenant_id queue_name) =>
    ∀ msg, first_due now (s.1.deque (queue_key tenant_id queue_name)) = some msg →
      ∀ other ∈ s.1.deque (queue_key tenant_id queue_name), is_available now other = true →
        ¬ Older uuid4 other.message_id msg.message_id
  | (_, .ack _ _) => True
  | (_, .nack tenant_id message_id _ _) =>
    ∀ msg, s.1.inflight message_id = some msg → msg.tenant_id = tenant_id →
      Fits (msg.attempt + 1)

/-- The replies of the call are the same, and the states after it are
related. -/
def Agrees (uuid4 : Uuid4) (used : Set (String × String)) (before : List (Int × Op))
    (s : InMemoryQueueBackend × Nat) (t : Rows × Nat) (call : Int × Op) : Prop :=
  (in_memory.serve uuid4 s call.1 call.2).2 = (sqlite.serve uuid4 t call.1 call.2).2 ∧
    Related uuid4 used (before ++ [call]) (in_memory.serve uuid4 s call.1 call.2).1
      (sqlite.serve uuid4 t call.1 call.2).1

theorem enqueue_agrees (h : Related uuid4 used before (q, d) (rows, d)) {now : Int}
    (hnow : ∀ c ∈ before, c.1 < now) {tenant_id queue_name : String} {payload : PyDict}
    {available_at : Option Int}
    (hfine : Fine uuid4 used (q, d) (now, .enqueue tenant_id queue_name payload available_at)) :
    Agrees uuid4 used before (q, d) (rows, d)
      (now, .enqueue tenant_id queue_name payload available_at) := by
  unfold Fine at hfine
  simp only [Agrees, Backend.serve, in_memory, sqlite, queue_backend.enqueue, sqlite_queue.enqueue]
  rcases hattempt : (PyDict.getD payload "attempt" (.int 0)).toInt with e | attempt
  · exact ⟨rfl, rfl, h.deques, h.inflight, (h.filled.later _).more⟩
  · obtain ⟨hfits, halone⟩ := hfine attempt hattempt
    simp only [hfits, if_true]
    generalize hrow : (⟨"msg_" ++ uuid4.hex12 d, tenant_id, queue_name, payload, attempt, .pending,
      available_at.getD now, now, now⟩ : Row) = row
    have hmessage : row.message = ⟨"msg_" ++ uuid4.hex12 d, tenant_id, queue_name, payload,
        attempt, some (available_at.getD now)⟩ := by rw [← hrow]; rfl
    have hstamp : row.stamp = ⟨"msg_" ++ uuid4.hex12 d, tenant_id, queue_name, now⟩ := by
      rw [← hrow]; rfl
    have hpending : row.status = .pending := by rw [← hrow]
    have hkey : queue_key row.tenant_id row.queue_name = queue_key tenant_id queue_name := by
      rw [← hrow]
    rw [← hmessage]
    refine ⟨rfl, rfl, fun key => ?_, fun id => ?_, ?_⟩
    · rw [deque_mk, waiting_concat]
      unfold waitingOf waits
      rw [hpending, hkey]
      split
      · rename_i heq
        rw [heq]
        simpa using List.Perm.append_right [row.message] (h.deques _)
      · rename_i hne
        have hne' : ¬ queue_key tenant_id queue_name = key := fun heq => hne heq.symm
        simpa [hne'] using h.deques key
    · show q.inflight id = _
      rw [h.inflight]
      unfold select_inflight
      rw [List.find?_append]
      simp [hpending]
    · rw [List.map_append, List.map_cons, List.map_nil, hstamp]
      exact h.filled.insert (now, _) hnow halone

theorem waitingOf_pending (hstatus : row.status = .pending) (key : String) :
    waitingOf key row =
      if key = queue_key row.tenant_id row.queue_name then [row.message] else [] := by
  unfold waitingOf waits
  by_cases hkey : key = queue_key row.tenant_id row.queue_name
  · simp [hstatus, hkey]
  · have hne : ¬ queue_key row.tenant_id row.queue_name = key := fun heq => hkey heq.symm
    simp [hkey, hne]

theorem waitingOf_other (hstatus : row.status ≠ .pending) (key : String) :
    waitingOf key row = [] := by
  simp [waitingOf, waits, hstatus]

/-- The first due message is the one that the `SELECT` gives. -/
theorem first_due_eq (h : Related uuid4 used before (q, d) (rows, d)) {now : Int}
    {tenant_id queue_name : String} (hp : (tenant_id, queue_name) ∈ used)
    (hfine : Fine uuid4 used (q, d) (now, .dequeue tenant_id queue_name)) :
    first_due now (q.deque (queue_key tenant_id queue_name)) =
      (select_next rows now tenant_id queue_name).map Row.message := by
  have hselect := h.select_spec now hp
  unfold Fine at hfine
  rcases hrow : select_next rows now tenant_id queue_name with _ | row
  · rw [hrow] at hselect
    exact List.find?_eq_none.2 hselect
  · rw [hrow] at hselect
    obtain ⟨-, -, havailable, hmem, hfirst⟩ := hselect
    rcases hmsg : first_due now (q.deque (queue_key tenant_id queue_name)) with _ | msg
    · exact absurd havailable (List.find?_eq_none.1 hmsg _ hmem)
    · have hdue : is_available now msg = true := List.find?_some hmsg
      have hin : msg ∈ q.deque (queue_key tenant_id queue_name) := List.mem_of_find?_eq_some hmsg
      rcases hfirst msg hin hdue with heq | holder
      · rw [heq]
        rfl
      · exact absurd holder (hfine msg hmsg row.message hmem havailable)

theorem dequeue_agrees (h : Related uuid4 used before (q, d) (rows, d)) {now : Int}
    {tenant_id queue_name : String} (hp : (tenant_id, queue_name) ∈ used)
    (hfine : Fine uuid4 used (q, d) (now, .dequeue tenant_id queue_name)) :
    Agrees uuid4 used before (q, d) (rows, d) (now, .dequeue tenant_id queue_name) := by
  have hfirst := first_due_eq h hp hfine
  have hselect := h.select_spec now hp
  obtain ⟨left, htakes⟩ := dequeue_takes q now tenant_id queue_name
  rw [hfirst] at htakes
  simp only [Agrees, Backend.serve, in_memory, sqlite, sqlite_queue.dequeue]
  rcases hrow : select_next rows now tenant_id queue_name with _ | row
  · rw [hrow] at htakes
    obtain ⟨hperm, hdequeue⟩ := htakes
    rw [hdequeue]
    refine ⟨rfl, rfl, fun key => ?_, h.inflight, h.filled.later _⟩
    rw [deque_mk]
    split
    · rename_i heq
      rw [heq]
      exact hperm.trans (h.deques _)
    · exact h.deques key
  · rw [hrow] at htakes hselect
    obtain ⟨hperm, hdequeue⟩ := htakes
    obtain ⟨hin, hstatus, -, hmem, -⟩ := hselect
    obtain ⟨pre, post, hplace⟩ := h.place hin
    rw [hdequeue]
    refine ⟨rfl, ?_⟩
    dsimp only
    rw [hplace.split, update_row_split hplace.pre_ne hplace.post_ne]
    refine h.change _ hplace rfl (fun key => ?_) ?_ fun id hid => ?_
    · have hothers := h.others hplace key
      have hkey : queue_key tenant_id queue_name = queue_key row.tenant_id row.queue_name := by
        obtain ⟨r, hr, -, htenant, hqueue, hmsg⟩ := (h.mem_deque_iff hp).1 hmem
        rw [← htenant, ← hqueue, show r.tenant_id = row.tenant_id from
          congrArg QueueMessage.tenant_id hmsg, show r.queue_name = row.queue_name from
          congrArg QueueMessage.queue_name hmsg]
      rw [deque_mk, waitingOf_other (by simp), List.nil_append]
      rw [waitingOf_pending hstatus, ← hkey] at hothers
      split
      · rename_i heq
        rw [if_pos heq] at hothers
        subst heq
        exact (List.perm_cons _).1 (hperm.trans hothers)
      · rename_i hne
        rw [if_neg hne] at hothers
        exact hothers
    · exact Function.update_self _ _ _
    · exact Function.update_of_ne hid _ _

theorem ack_agrees (h : Related uuid4 used before (q, d) (rows, d)) (now : Int)
    (tenant_id message_id : String) :
    Agrees uuid4 used before (q, d) (rows, d) (now, .ack tenant_id message_id) := by
  simp only [Agrees, Backend.serve, in_memory, sqlite, queue_backend.ack, sqlite_queue.ack]
  rw [h.inflight]
  rcases hrow : select_inflight rows message_id with _ | row
  · exact ⟨rfl, h.later _⟩
  · have hfound := List.find?_some hrow
    simp only [Bool.and_eq_true, decide_eq_true_eq] at hfound
    obtain ⟨rfl, hstatus⟩ := hfound
    obtain ⟨pre, post, hplace⟩ := h.place (List.mem_of_find?_eq_some hrow)
    have htenant : row.message.tenant_id = row.tenant_id := rfl
    simp only [Option.map_some, htenant]
    split
    · exact ⟨rfl, h.later _⟩
    · refine ⟨rfl, ?_⟩
      dsimp only
      rw [hplace.split, delete_row_split hplace.pre_ne hplace.post_ne]
      exact h.drop _ hplace (by simp [hstatus])

theorem nack_agrees (h : Related uuid4 used before (q, d) (rows, d)) {now : Int}
    {tenant_id message_id : String} {requeue : Bool} {delay_ms : Int}
    (hfine : Fine uuid4 used (q, d) (now, .nack tenant_id message_id requeue delay_ms)) :
    Agrees uuid4 used before (q, d) (rows, d)
      (now, .nack tenant_id message_id requeue delay_ms) := by
  unfold Fine at hfine
  simp only [Agrees, Backend.serve, in_memory, sqlite, queue_backend.nack, sqlite_queue.nack]
  have hinflight := h.inflight message_id
  rcases hrow : select_inflight rows message_id with _ | row
  · rw [hrow] at hinflight
    rw [hinflight]
    exact ⟨rfl, h.later _⟩
  · have hfound := List.find?_some hrow
    simp only [Bool.and_eq_true, decide_eq_true_eq] at hfound
    obtain ⟨rfl, hstatus⟩ := hfound
    obtain ⟨pre, post, hplace⟩ := h.place (List.mem_of_find?_eq_some hrow)
    have htenant : row.message.tenant_id = row.tenant_id := rfl
    have hattempt : row.message.attempt = row.attempt := rfl
    rw [hrow, Option.map_some] at hinflight
    rw [hinflight]
    simp only [htenant, hattempt]
    by_cases howner : row.tenant_id = tenant_id
    · subst howner
      have hfits := hfine row.message hinflight rfl
      rw [hattempt] at hfits
      have hothers : ∀ key, (q.deque key).Perm (waiting (pre ++ post) key) := by
        intro key
        have hothers := h.others hplace key
        rwa [waitingOf_other (by simp [hstatus]), List.nil_append] at hothers
      simp only [ne_eq, not_true_eq_false, if_false, hfits, if_true]
      cases requeue with
      | false =>
        simp only [Bool.false_eq_true, if_false]
        refine ⟨rfl, ?_⟩
        rw [hplace.split, update_row_split hplace.pre_ne hplace.post_ne]
        refine h.change _ hplace rfl (fun key => ?_) ?_ fun id hid => ?_
        · rw [waitingOf_other (by simp), List.nil_append]
          exact hothers key
        · exact Function.update_self _ _ _
        · exact Function.update_of_ne hid _ _
      | true =>
        simp only [if_true]
        refine ⟨trivial, ?_⟩
        rw [hplace.split, update_row_split hplace.pre_ne hplace.post_ne]
        refine h.change _ hplace rfl (fun key => ?_) ?_ fun id hid => ?_
        · have hqueue : row.message.queue_name = row.queue_name := rfl
          rw [deque_mk, waitingOf_pending rfl, hqueue]
          split
          · rename_i heq
            rw [heq]
            exact (hothers _).cons _
          · exact hothers key
        · exact Function.update_self _ _ _
        · exact Function.update_of_ne hid _ _
    · simp only [howner, ne_eq, not_false_eq_true, if_true]
      rw [update_back hinflight]
      exact ⟨trivial, h.later _⟩

/-- What the observer sees is the same. -/
def SameAnswer (uuid4 : Uuid4) (used : Set (String × String)) (s : InMemoryQueueBackend × Nat)
    (t : Rows × Nat) (call : Int × Op) : Prop :=
  ((in_memory.machine uuid4 used).step s call).2 = ((sqlite.machine uuid4 used).step t call).2

theorem SameAnswer.reply {s : InMemoryQueueBackend × Nat} {t : Rows × Nat} {call : Int × Op}
    (h : SameAnswer uuid4 used s t call) :
    (in_memory.serve uuid4 s call.1 call.2).2 = (sqlite.serve uuid4 t call.1 call.2).2 :=
  congrArg Prod.fst h

theorem SameAnswer.count {s : InMemoryQueueBackend × Nat} {t : Rows × Nat} {call : Int × Op}
    (h : SameAnswer uuid4 used s t call) {p : String × String} (hp : p ∈ used) :
    in_memory.pending_count (in_memory.serve uuid4 s call.1 call.2).1.1 p.1 p.2 =
      sqlite.pending_count (sqlite.serve uuid4 t call.1 call.2).1.1 p.1 p.2 :=
  congrFun (congrArg Prod.snd h) ⟨p, hp⟩

/-- The backends agree, so the observer cannot tell them apart. -/
theorem Agrees.same_answer {s : InMemoryQueueBackend × Nat} {t : Rows × Nat} {call : Int × Op}
    (h : Agrees uuid4 used before s t call) : SameAnswer uuid4 used s t call := by
  obtain ⟨hreply, hrelated⟩ := h
  exact Prod.ext hreply (funext fun p => hrelated.counts p.2)

theorem pending_count_concat {tenant_id queue_name : String}
    (hrow : ¬ (row.tenant_id = tenant_id ∧ row.queue_name = queue_name)) :
    sqlite_queue.pending_count (rows ++ [row]) tenant_id queue_name =
      sqlite_queue.pending_count rows tenant_id queue_name := by
  have hno : (row.tenant_id = tenant_id && row.queue_name = queue_name &&
      row.status = .pending : Bool) = false := by
    by_contra h
    simp only [Bool.not_eq_false, Bool.and_eq_true, decide_eq_true_eq] at h
    exact hrow h.1
  unfold sqlite_queue.pending_count
  rw [List.filter_append, List.filter_cons, hno]
  simp

theorem enqueue_fine (h : Related uuid4 used before (q, d) (rows, d)) {now : Int}
    {tenant_id queue_name : String} {payload : PyDict} {available_at : Option Int}
    (hsame : SameAnswer uuid4 used (q, d) (rows, d)
      (now, .enqueue tenant_id queue_name payload available_at)) :
    Fine uuid4 used (q, d) (now, .enqueue tenant_id queue_name payload available_at) := by
  intro attempt hattempt
  have hreply := hsame.reply
  simp only [Backend.serve, in_memory, sqlite, queue_backend.enqueue, sqlite_queue.enqueue,
    hattempt] at hreply
  have hfits : Fits attempt := by
    by_contra hno
    simp only [hno, if_false] at hreply
    cases hreply
  refine ⟨hfits, fun p hp hkey => ?_⟩
  by_contra hne
  have hcount := hsame.count hp
  have hbefore := h.counts hp
  simp only [Backend.serve, in_memory, sqlite, queue_backend.enqueue, sqlite_queue.enqueue,
    hattempt, hfits, if_true, queue_backend.pending_count] at hcount hbefore
  rw [deque_mk, if_pos hkey, pending_count_concat, ← hbefore, hkey] at hcount
  · simp at hcount
  · rintro ⟨htenant, hqueue⟩
    exact hne (Prod.ext htenant.symm hqueue.symm)

theorem dequeue_fine (h : Related uuid4 used before (q, d) (rows, d)) {now : Int}
    {tenant_id queue_name : String} (hp : (tenant_id, queue_name) ∈ used)
    (hsame : SameAnswer uuid4 used (q, d) (rows, d) (now, .dequeue tenant_id queue_name)) :
    Fine uuid4 used (q, d) (now, .dequeue tenant_id queue_name) := by
  intro msg hmsg other hother havailable
  have hreply := hsame.reply
  have hselect := h.select_spec now hp
  obtain ⟨left, htakes⟩ := dequeue_takes q now tenant_id queue_name
  rw [hmsg] at htakes
  simp only [Backend.serve, in_memory, sqlite, htakes.2, sqlite_queue.dequeue] at hreply
  rcases hrow : select_next rows now tenant_id queue_name with _ | row
  · rw [hrow] at hreply
    cases hreply
  · rw [hrow] at hreply hselect
    have heq : msg = row.message := Option.some.inj (Except.ok.inj hreply)
    rw [heq]
    rcases hselect.2.2.2.2 other hother havailable with hself | holder
    · rw [hself]
      exact fun holder => holder.ne rfl
    · exact holder.asymm

theorem nack_fine (h : Related uuid4 used before (q, d) (rows, d)) {now : Int}
    {tenant_id message_id : String} {requeue : Bool} {delay_ms : Int}
    (hsame : SameAnswer uuid4 used (q, d) (rows, d)
      (now, .nack tenant_id message_id requeue delay_ms)) :
    Fine uuid4 used (q, d) (now, .nack tenant_id message_id requeue delay_ms) := by
  rintro msg hmsg rfl
  by_contra hno
  have hreply := hsame.reply
  have hinflight := h.inflight message_id
  have hmsg : q.inflight message_id = some msg := hmsg
  rcases hrow : select_inflight rows message_id with _ | row
  · rw [hrow] at hinflight
    exact absurd (hinflight.symm.trans hmsg) (by simp)
  · rw [hrow] at hinflight
    obtain rfl : row.message = msg := Option.some.inj (hinflight.symm.trans hmsg)
    have htenant : row.message.tenant_id = row.tenant_id := rfl
    have hattempt : row.message.attempt = row.attempt := rfl
    rw [hattempt] at hno
    simp only [Backend.serve, in_memory, sqlite, queue_backend.nack, sqlite_queue.nack, hmsg, hrow,
      htenant, ne_eq, not_true_eq_false, if_false, hno] at hreply
    cases requeue <;> cases hreply

end related

/-! ## The law -/

/-- The calls that name a pair name a used one. -/
def Uses (used : Set (String × String)) : Op → Prop
  | .enqueue tenant_id queue_name _ _ => (tenant_id, queue_name) ∈ used
  | .dequeue tenant_id queue_name => (tenant_id, queue_name) ∈ used
  | _ => True

/-- In related states the next call is answered in the same way exactly when
it is fine, and then the states are related again. -/
theorem call_agrees_iff {s : InMemoryQueueBackend × Nat} {t : Rows × Nat} {call : Int × Op}
    (h : Related uuid4 used before s t) (hnow : ∀ c ∈ before, c.1 < call.1)
    (huses : Uses used call.2) :
    (SameAnswer uuid4 used s t call ↔ Fine uuid4 used s call) ∧
      (Fine uuid4 used s call → Agrees uuid4 used before s t call) := by
  obtain ⟨q, d⟩ := s
  obtain ⟨rows, d'⟩ := t
  obtain rfl : d' = d := h.draws
  obtain ⟨now, op⟩ := call
  have hagrees : Fine uuid4 used (q, d') (now, op) →
      Agrees uuid4 used before (q, d') (rows, d') (now, op) := by
    intro hfine
    cases op with
    | enqueue tenant_id queue_name payload available_at => exact enqueue_agrees h hnow hfine
    | dequeue tenant_id queue_name => exact dequeue_agrees h huses hfine
    | ack tenant_id message_id => exact ack_agrees h now tenant_id message_id
    | nack tenant_id message_id requeue delay_ms => exact nack_agrees h hfine
  refine ⟨⟨fun hsame => ?_, fun hfine => (hagrees hfine).same_answer⟩, hagrees⟩
  cases op with
  | enqueue tenant_id queue_name payload available_at => exact enqueue_fine h hsame
  | dequeue tenant_id queue_name => exact dequeue_fine h huses hsame
  | ack tenant_id message_id => trivial
  | nack tenant_id message_id requeue delay_ms => exact nack_fine h hsame

/-- The pair of the runs below. -/
def jobs_queue : Set (String × String) := {("tenant", "jobs")}

def retried : List (Int × Op) :=
  [(1, .enqueue "tenant" "jobs" [] none), (2, .dequeue "tenant" "jobs"),
    (3, .nack "tenant" "msg_" true 0), (4, .dequeue "tenant" "jobs")]

def both_nacked : List (Int × Op) :=
  [(1, .enqueue "tenant" "jobs" [] none), (2, .enqueue "tenant" "jobs" [] none),
    (3, .dequeue "tenant" "jobs"), (4, .dequeue "tenant" "jobs"),
    (5, .nack "tenant" "msg_" true 0), (6, .nack "tenant" "msg_a" true 0)]

def taken_again : List (Int × Op) := both_nacked ++ [(7, .dequeue "tenant" "jobs")]

end bid_evaluation.backend_laws
