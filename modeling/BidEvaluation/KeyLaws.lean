-- The laws of the queue keys. A key joins a tenant and a queue, and
-- `list_tenants` cuts it apart again; both are exact only while no key of the
-- service can be read with another of its queue names.
import BidEvaluation.QueueLaws
import BidEvaluation.RedisQueue

open dict_lib bid_evaluation.values bid_evaluation.queue_backend

namespace bid_evaluation.key_laws

/-! ## Keys -/

/-- A tenant is cut out of a key exactly when it stands in its place there. -/
theorem tenant_in_iff {start suffix key tenant_id : String} :
    tenant_in start suffix key = some tenant_id ↔
      tenant_id ≠ "" ∧ key = start ++ tenant_id ++ suffix := by
  unfold tenant_in
  dsimp only
  constructor
  · intro h
    split at h
    · rename_i hends
      obtain ⟨⟨after, hafter⟩, ⟨before, hbefore⟩⟩ := hends
      split at h
      · cases h
      · rename_i hne
        obtain rfl := Option.some.inj h
        refine ⟨hne, ?_⟩
        have htake : key.toList.take (key.toList.length - suffix.toList.length) = before := by
          rw [← hbefore, List.length_append, Nat.add_sub_cancel, List.take_left']
          rfl
        rw [htake] at hne ⊢
        have hlong : start.toList.length < before.length := by
          by_contra hshort
          apply hne
          rw [List.drop_eq_nil_of_le (not_lt.1 hshort)]
        have hstart : start.toList <+: before := by
          apply List.prefix_of_prefix_length_le ⟨after, hafter⟩ ⟨suffix.toList, hbefore⟩
          omega
        obtain ⟨middle, hmiddle⟩ := hstart
        rw [← hmiddle, List.drop_left' rfl]
        apply String.toList_injective
        rw [← hbefore, ← hmiddle]
        simp
    · cases h
  · rintro ⟨hne, rfl⟩
    have hends : start.toList <+: (start ++ tenant_id ++ suffix).toList ∧
        suffix.toList <:+ (start ++ tenant_id ++ suffix).toList := by
      refine ⟨⟨(tenant_id ++ suffix).toList, ?_⟩, ⟨(start ++ tenant_id).toList, ?_⟩⟩
      · simp
      · simp
    rw [if_pos hends]
    have htake : (start ++ tenant_id ++ suffix).toList.take
        ((start ++ tenant_id ++ suffix).toList.length - suffix.toList.length) =
          start.toList ++ tenant_id.toList := by
      rw [String.toList_append, String.toList_append, List.length_append, Nat.add_sub_cancel,
        List.take_left']
      rfl
    rw [htake, List.drop_left' rfl, String.ofList_toList, if_neg hne]

theorem mem_sorted_tenants {tenants : List String} {tenant_id : String} :
    tenant_id ∈ sorted_tenants tenants ↔ tenant_id ∈ tenants := by
  unfold sorted_tenants
  rw [List.mem_insertionSort, List.mem_dedup]

/-- The form of the keys of a backend. -/
def key_of (start stop tenant_id queue_name : String) : String :=
  start ++ tenant_id ++ (":queue:" ++ queue_name ++ stop)

theorem key_of_eq_iff {start stop t q t' q' : String} :
    key_of start stop t q = key_of start stop t' q' ↔
      t ++ ":queue:" ++ q = t' ++ ":queue:" ++ q' := by
  have hsplit : ∀ tenant_id queue_name, key_of start stop tenant_id queue_name =
      start ++ ((tenant_id ++ ":queue:" ++ queue_name) ++ stop) := by
    intro tenant_id queue_name
    simp only [key_of, String.append_assoc]
  rw [hsplit, hsplit, String.append_right_inj, String.append_left_inj]

/-- No used key can be read with another used queue name. -/
def Unambiguous (used : Set (String × String)) : Prop :=
  ∀ p ∈ used, ∀ p' ∈ used, ∀ tenant_id, tenant_id ≠ "" →
    p.1 ++ ":queue:" ++ p.2 = tenant_id ++ ":queue:" ++ p'.2 → p.2 = p'.2

/-- Queue names without a colon are never ambiguous. -/
theorem unambiguous_of_plain {used : Set (String × String)}
    (h : ∀ p ∈ used, ':' ∉ p.2.toList) : Unambiguous used := by
  intro p hp p' hp' tenant_id _ heq
  -- Read backwards, a key begins with its queue name, up to the first colon.
  have hlast : ∀ tenant_id queue_name : String, ':' ∉ queue_name.toList →
      (tenant_id ++ ":queue:" ++ queue_name).toList.reverse.takeWhile (· ≠ ':') =
        queue_name.toList.reverse := by
    intro tenant_id queue_name hplain
    have hcolon : (tenant_id ++ ":queue:" ++ queue_name).toList.reverse =
        queue_name.toList.reverse ++ ':' :: (tenant_id ++ ":queue").toList.reverse := by
      simp
    have hall : ∀ c ∈ queue_name.toList.reverse, decide (c ≠ ':') = true := by
      intro c hc
      rw [List.mem_reverse] at hc
      rw [decide_eq_true_eq]
      rintro rfl
      exact hplain hc
    rw [hcolon, List.takeWhile_append_of_pos hall]
    simp
  apply String.toList_injective
  apply List.reverse_injective
  rw [← hlast p.1 p.2 (h p hp), heq, hlast tenant_id p'.2 (h p' hp')]

/-! ## Isolation -/

/-- What holds of a queue: a dequeue gives only what was enqueued for its
tenant and its queue, and the tenants of a queue are those with a message
that is pending in it. -/
structure Isolated (used : Set (String × String)) (enqueued : List QueueMessage)
    (pending : QueueMessage → Prop) (dequeued : String → String → QueueMessage → Prop)
    (list_tenants : String → List String) : Prop where
  own : ∀ p ∈ used, ∀ msg, dequeued p.1 p.2 msg → ∃ first ∈ enqueued,
    first.message_id = msg.message_id ∧ first.tenant_id = p.1 ∧ first.queue_name = p.2
  tenants : ∀ p ∈ used, ∀ tenant_id, tenant_id ∈ list_tenants p.2 ↔
    ∃ msg, pending msg ∧ msg.tenant_id = tenant_id ∧ msg.queue_name = p.2

/-- A message of a used pair that was enqueued as it is. -/
structure Enqueued (used : Set (String × String)) (enqueued : List QueueMessage)
    (msg : QueueMessage) : Prop where
  pair : (msg.tenant_id, msg.queue_name) ∈ used
  first : ∃ first ∈ enqueued, first.message_id = msg.message_id ∧
    first.tenant_id = msg.tenant_id ∧ first.queue_name = msg.queue_name

/-- A queue that keeps its messages under keys is isolated while no key is
ambiguous. `stands` says which message is pending under which key. -/
theorem isolated_of_keys {used : Set (String × String)} {enqueued : List QueueMessage}
    {pending : QueueMessage → Prop} {dequeued : String → String → QueueMessage → Prop}
    {list_tenants : String → List String} (start stop : String)
    (stands : String → QueueMessage → Prop) (hnames : ∀ p ∈ used, p.1 ≠ "")
    (hclear : Unambiguous used) (hpending : ∀ msg, pending msg ↔ ∃ key, stands key msg)
    (hstands : ∀ key msg, stands key msg →
      key = key_of start stop msg.tenant_id msg.queue_name ∧ Enqueued used enqueued msg)
    (hdequeued : ∀ t q msg, dequeued t q msg → stands (key_of start stop t q) msg)
    (hlist : ∀ q t, t ∈ list_tenants q ↔ t ≠ "" ∧ ∃ msg, stands (key_of start stop t q) msg) :
    Isolated used enqueued pending dequeued list_tenants := by
  -- A message that stands under the key of a used queue is of that pair.
  have hown : ∀ p ∈ used, ∀ t msg, t ≠ "" → stands (key_of start stop t p.2) msg →
      msg.tenant_id = t ∧ msg.queue_name = p.2 := by
    intro p hp t msg hne hmsg
    obtain ⟨hkey, hfirst⟩ := hstands _ _ hmsg
    have heq := key_of_eq_iff.1 hkey.symm
    have hqueue : msg.queue_name = p.2 := hclear _ hfirst.pair p hp t hne heq
    rw [hqueue, String.append_left_inj, String.append_left_inj] at heq
    exact ⟨heq, hqueue⟩
  constructor
  · intro p hp msg hmsg
    have hunder := hdequeued _ _ _ hmsg
    obtain ⟨htenant, hqueue⟩ := hown p hp p.1 msg (hnames p hp) hunder
    obtain ⟨first, hin, hid, ht, hq⟩ := (hstands _ _ hunder).2.first
    exact ⟨first, hin, hid, ht.trans htenant, hq.trans hqueue⟩
  · intro p hp t
    rw [hlist]
    constructor
    · rintro ⟨hne, msg, hmsg⟩
      exact ⟨msg, (hpending msg).2 ⟨_, hmsg⟩, hown p hp t msg hne hmsg⟩
    · rintro ⟨msg, hmsg, rfl, hqueue⟩
      obtain ⟨key, hunder⟩ := (hpending msg).1 hmsg
      obtain ⟨hkey, hfirst⟩ := hstands _ _ hunder
      refine ⟨hnames _ hfirst.pair, msg, ?_⟩
      rw [← hqueue, ← hkey]
      exact hunder

/-! ## The in-memory queue -/

/-- A call at a clock reading, or a reset. -/
inductive Request where
  | call (now : Int) (op : Op)
  | reset

def handle (uuid4 : Uuid4) (s : Session) : Request → Session
  | .call now op => call uuid4 s now op
  | .reset => { s with queue := reset s.queue }

def handled (uuid4 : Uuid4) (requests : List Request) : Session :=
  requests.foldl (handle uuid4) Session.start

/-- The calls that name a queue name a used one. -/
def Uses (used : Set (String × String)) : Request → Prop
  | .call _ (.enqueue tenant_id queue_name _ _) => (tenant_id, queue_name) ∈ used
  | .call _ (.dequeue tenant_id queue_name) => (tenant_id, queue_name) ∈ used
  | _ => True

def enqueuedMsg : Event → Option QueueMessage
  | .enqueued msg => some msg
  | _ => none

def enqueuedIn (log : List Event) : List QueueMessage := log.filterMap enqueuedMsg

theorem queue_key_eq (tenant_id queue_name : String) :
    queue_key tenant_id queue_name = key_of "bea:" "" tenant_id queue_name := by
  simp [queue_key, key_of, String.append_assoc]

theorem mem_deque_iff {q : InMemoryQueueBackend} {key : String} {msg : QueueMessage} :
    msg ∈ q.deque key ↔ ∃ queue, (key, queue) ∈ q.queues.entries ∧ msg ∈ queue := by
  unfold InMemoryQueueBackend.deque
  simp only [Dict.mem_entries_iff]
  cases q.queues.get? key with
  | none => simp
  | some queue => simp

theorem mem_list_tenants {q : InMemoryQueueBackend} {queue_name tenant_id : String} :
    tenant_id ∈ list_tenants q queue_name ↔
      tenant_id ≠ "" ∧ ∃ msg, msg ∈ q.deque (key_of "bea:" "" tenant_id queue_name) := by
  have hcut : ∀ key, tenant_in "bea:" (":queue:" ++ queue_name) key = some tenant_id ↔
      tenant_id ≠ "" ∧ key = key_of "bea:" "" tenant_id queue_name := by
    intro key
    rw [tenant_in_iff, key_of, String.append_empty]
  unfold list_tenants
  rw [mem_sorted_tenants, List.mem_filterMap]
  constructor
  · rintro ⟨⟨key, queue⟩, hin, hfound⟩
    dsimp only at hfound
    split at hfound
    · cases hfound
    · rename_i hnonempty
      obtain ⟨hne, rfl⟩ := (hcut key).1 hfound
      obtain ⟨msg, hmsg⟩ := List.exists_mem_of_ne_nil queue (by simpa using hnonempty)
      exact ⟨hne, msg, mem_deque_iff.2 ⟨queue, hin, hmsg⟩⟩
  · rintro ⟨hne, msg, hmsg⟩
    obtain ⟨queue, hin, hmsg⟩ := mem_deque_iff.1 hmsg
    refine ⟨(_, queue), hin, ?_⟩
    dsimp only
    rw [if_neg (by simpa using List.ne_nil_of_mem hmsg)]
    exact (hcut _).2 ⟨hne, rfl⟩

/-- Each pending message stands under its own key. -/
structure Keyed (used : Set (String × String)) (s : Session) : Prop where
  deque : ∀ key msg, msg ∈ s.queue.deque key →
    key = queue_key msg.tenant_id msg.queue_name ∧ Enqueued used (enqueuedIn s.log) msg
  inflight : ∀ id msg, s.queue.inflight id = some msg → Enqueued used (enqueuedIn s.log) msg

theorem Enqueued.mono {used : Set (String × String)} {l l' : List QueueMessage}
    {msg msg' : QueueMessage} (h : Enqueued used l msg) (hsub : l ⊆ l')
    (hid : msg'.message_id = msg.message_id) (htenant : msg'.tenant_id = msg.tenant_id)
    (hqueue : msg'.queue_name = msg.queue_name) : Enqueued used l' msg' where
  pair := by
    rw [htenant, hqueue]
    exact h.pair
  first := by
    obtain ⟨first, hin, hf⟩ := h.first
    rw [hid, htenant, hqueue]
    exact ⟨first, hsub hin, hf⟩

variable {used : Set (String × String)} {s : Session}

/-- A call that adds no message keeps the keys, whatever it logs. -/
theorem Keyed.moves {q : InMemoryQueueBackend} {draws : Nat} (events : List Event)
    (hdeque : ∀ key msg, msg ∈ q.deque key → key = queue_key msg.tenant_id msg.queue_name ∧
      Enqueued used (enqueuedIn s.log) msg)
    (hinflight : ∀ id msg, q.inflight id = some msg → Enqueued used (enqueuedIn s.log) msg) :
    Keyed used ⟨q, draws, s.log ++ events⟩ := by
  have hlog : enqueuedIn s.log ⊆ enqueuedIn (s.log ++ events) := by
    unfold enqueuedIn
    rw [List.filterMap_append]
    exact List.subset_append_left _ _
  constructor
  · intro key msg hmsg
    obtain ⟨hkey, hfirst⟩ := hdeque key msg hmsg
    exact ⟨hkey, hfirst.mono hlog rfl rfl rfl⟩
  · intro id msg hmsg
    exact (hinflight id msg hmsg).mono hlog rfl rfl rfl

theorem keyed_enqueue (uuid4 : Uuid4) (h : Keyed used s) (now : Int) (tenant_id queue_name : String)
    (payload : PyDict) (available_at : Option Int) (hused : (tenant_id, queue_name) ∈ used) :
    Keyed used (call uuid4 s now (.enqueue tenant_id queue_name payload available_at)) := by
  simp only [call, enqueue]
  rcases (payload.getD "attempt" (.int 0)).toInt with e | attempt
  · have hkept : Keyed used ⟨s.queue, s.draws + 1, s.log ++ []⟩ := Keyed.moves [] h.deque h.inflight
    rwa [List.append_nil] at hkept
  · dsimp only
    generalize hmsg : (⟨"msg_" ++ uuid4.hex12 s.draws, tenant_id, queue_name, payload, attempt,
      some (available_at.getD now)⟩ : QueueMessage) = msg
    have htenant : msg.tenant_id = tenant_id := by rw [← hmsg]
    have hqueue : msg.queue_name = queue_name := by rw [← hmsg]
    have hlog : enqueuedIn (s.log ++ [.enqueued msg]) = enqueuedIn s.log ++ [msg] := by
      simp [enqueuedIn, enqueuedMsg]
    have hold : enqueuedIn s.log ⊆ enqueuedIn (s.log ++ [.enqueued msg]) := by
      rw [hlog]
      exact List.subset_append_left _ _
    have hnew : Enqueued used (enqueuedIn (s.log ++ [.enqueued msg])) msg := by
      constructor
      · rw [htenant, hqueue]
        exact hused
      · exact ⟨msg, by simp [hlog], rfl, rfl, rfl⟩
    constructor
    · intro key m hm
      rw [deque_set] at hm
      split at hm
      · rename_i hkey
        rcases List.mem_append.1 hm with hin | hin
        · obtain ⟨hown, hfirst⟩ := h.deque _ m hin
          exact ⟨hkey.trans hown, hfirst.mono hold rfl rfl rfl⟩
        · obtain rfl := List.mem_singleton.1 hin
          exact ⟨by rw [hkey, htenant, hqueue], hnew⟩
      · obtain ⟨hown, hfirst⟩ := h.deque key m hm
        exact ⟨hown, hfirst.mono hold rfl rfl rfl⟩
    · intro id m hm
      exact (h.inflight id m hm).mono hold rfl rfl rfl

theorem mem_deque_set {queues : Dict String (List QueueMessage)}
    {inflight inflight' : String → Option QueueMessage} {key k : String} {l : List QueueMessage}
    {msg : QueueMessage}
    (h : msg ∈ InMemoryQueueBackend.deque ⟨queues.set key l, inflight⟩ k) :
    k = key ∧ msg ∈ l ∨ msg ∈ InMemoryQueueBackend.deque ⟨queues, inflight'⟩ k := by
  unfold InMemoryQueueBackend.deque at *
  dsimp only at *
  rw [Dict.get?_set] at h
  split at h
  · rename_i hk
    exact .inl ⟨hk, h⟩
  · exact .inr h

/-- What a dequeue takes stood under its key. -/
theorem dequeue_cases (q : InMemoryQueueBackend) (now : Int) (tenant_id queue_name : String) :
    (∀ key msg, msg ∈ (dequeue q now tenant_id queue_name).1.deque key → msg ∈ q.deque key) ∧
      match (dequeue q now tenant_id queue_name).2 with
      | none => (dequeue q now tenant_id queue_name).1.inflight = q.inflight
      | some msg => msg ∈ q.deque (queue_key tenant_id queue_name) ∧
          (dequeue q now tenant_id queue_name).1.inflight =
            Function.update q.inflight msg.message_id (some msg) := by
  obtain ⟨left, ⟨hdequeue, hperm⟩ | ⟨msg, hdequeue, -, hperm⟩⟩ := dequeue.spec q now tenant_id queue_name
  · rw [hdequeue]
    refine ⟨?_, rfl⟩
    intro k m hm
    rcases mem_deque_set hm with ⟨hk, hin⟩ | hin
    · rw [hk]
      exact hperm.subset hin
    · exact hin
  · rw [hdequeue]
    refine ⟨?_, hperm.subset List.mem_cons_self, rfl⟩
    intro k m hm
    rcases mem_deque_set hm with ⟨hk, hin⟩ | hin
    · rw [hk]
      exact hperm.subset (List.mem_cons_of_mem _ hin)
    · exact hin

theorem keyed_dequeue (uuid4 : Uuid4) (h : Keyed used s) (now : Int) (tenant_id queue_name : String) :
    Keyed used (call uuid4 s now (.dequeue tenant_id queue_name)) := by
  obtain ⟨hdeque, htaken⟩ := dequeue_cases s.queue now tenant_id queue_name
  simp only [call]
  rcases hresult : dequeue s.queue now tenant_id queue_name with ⟨q, _ | msg⟩
  · rw [hresult] at hdeque htaken
    have hkept : Keyed used ⟨q, s.draws, s.log ++ []⟩ :=
      Keyed.moves [] (fun key m hm => h.deque key m (hdeque key m hm)) (htaken ▸ h.inflight)
    rwa [List.append_nil] at hkept
  · rw [hresult] at hdeque htaken
    refine Keyed.moves _ (fun key m hm => h.deque key m (hdeque key m hm)) ?_
    intro id m hm
    rw [htaken.2] at hm
    by_cases hid : id = msg.message_id
    · rw [hid, Function.update_self] at hm
      cases hm
      exact (h.deque _ _ htaken.1).2
    · rw [Function.update_of_ne hid] at hm
      exact h.inflight id m hm

/-- To drop a message that is in flight leaves the others. -/
theorem inflight_dropped {f : String → Option QueueMessage} {id id' : String}
    {msg : QueueMessage} (h : Function.update f id none id' = some msg) : f id' = some msg := by
  by_cases hid : id' = id
  · rw [hid, Function.update_self] at h
    cases h
  · rwa [Function.update_of_ne hid] at h

theorem keyed_ack (uuid4 : Uuid4) (h : Keyed used s) (now : Int) (tenant_id message_id : String) :
    Keyed used (call uuid4 s now (.ack tenant_id message_id)) := by
  have hsame : Keyed used ⟨s.queue, s.draws, s.log ++ []⟩ := Keyed.moves [] h.deque h.inflight
  rw [List.append_nil] at hsame
  simp only [call, queue_backend.ack]
  rcases s.queue.inflight message_id with _ | msg
  · exact hsame
  · by_cases howner : msg.tenant_id = tenant_id
    · simp only [howner, ne_eq, not_true_eq_false, if_false]
      exact Keyed.moves _ h.deque fun id m hm => h.inflight id m (inflight_dropped hm)
    · simp only [howner, ne_eq, not_false_eq_true, if_true]
      exact hsame

theorem keyed_nack (uuid4 : Uuid4) (h : Keyed used s) (now : Int) (tenant_id message_id : String)
    (requeue : Bool) (delay_ms : Int) :
    Keyed used (call uuid4 s now (.nack tenant_id message_id requeue delay_ms)) := by
  have hsame : Keyed used ⟨s.queue, s.draws, s.log ++ []⟩ := Keyed.moves [] h.deque h.inflight
  rw [List.append_nil] at hsame
  simp only [call, nack]
  rcases hin : s.queue.inflight message_id with _ | msg
  · exact hsame
  · have hfirst := h.inflight message_id msg hin
    by_cases howner : msg.tenant_id = tenant_id
    · subst howner
      simp only [ne_eq, not_true_eq_false, if_false]
      cases requeue with
      | false =>
        exact Keyed.moves _ h.deque fun id m hm => h.inflight id m (inflight_dropped hm)
      | true =>
        refine Keyed.moves _ ?_ fun id m hm => h.inflight id m (inflight_dropped hm)
        intro key m hm
        rcases mem_deque_set hm with ⟨hkey, hm⟩ | hm
        · rcases List.mem_cons.1 hm with rfl | hm
          · exact ⟨hkey, hfirst.mono (List.Subset.refl _) rfl rfl rfl⟩
          · obtain ⟨hown, hold⟩ := h.deque _ m hm
            exact ⟨hkey.trans hown, hold⟩
        · exact h.deque key m hm
    · simp only [howner, ne_eq, not_false_eq_true, if_true]
      rw [update_back hin]
      exact hsame

theorem keyed_handle (uuid4 : Uuid4) (h : Keyed used s) (request : Request) (huses : Uses used request) :
    Keyed used (handle uuid4 s request) := by
  cases request with
  | reset =>
    have hempty : Keyed used ⟨new, s.draws, s.log ++ []⟩ := by
      refine Keyed.moves [] ?_ ?_
      · intro key msg hmsg
        rw [deque_new] at hmsg
        cases hmsg
      · intro id msg hmsg
        cases hmsg
    rw [List.append_nil] at hempty
    exact hempty
  | call now op =>
    cases op with
    | enqueue tenant_id queue_name payload available_at =>
      exact keyed_enqueue uuid4 h now tenant_id queue_name payload available_at huses
    | dequeue tenant_id queue_name => exact keyed_dequeue uuid4 h now tenant_id queue_name
    | ack tenant_id message_id => exact keyed_ack uuid4 h now tenant_id message_id
    | nack tenant_id message_id requeue delay_ms =>
      exact keyed_nack uuid4 h now tenant_id message_id requeue delay_ms

theorem keyed_handled (uuid4 : Uuid4) (requests : List Request) (huses : ∀ request ∈ requests, Uses used request) :
    Keyed used (handled uuid4 requests) := by
  unfold handled
  induction requests using List.reverseRecOn with
  | nil =>
    constructor
    · intro key msg hmsg
      change msg ∈ new.deque key at hmsg
      rw [deque_new] at hmsg
      cases hmsg
    · intro id msg hmsg
      cases hmsg
  | append_singleton before request ih =>
    rw [List.foldl_concat]
    exact keyed_handle uuid4 (ih fun r hr => huses r (by simp [hr])) request (huses request (by simp))

/-- What the in-memory queue shows after these requests. -/
def IsolatedInMemory (used : Set (String × String)) (s : Session) : Prop :=
  Isolated used (enqueuedIn s.log) (fun msg => ∃ key, msg ∈ s.queue.deque key)
    (fun tenant_id queue_name msg => ∃ now, (dequeue s.queue now tenant_id queue_name).2 = some msg)
    (list_tenants s.queue)

theorem in_memory_isolated (hnames : ∀ p ∈ used, p.1 ≠ "") (hclear : Unambiguous used)
    (hkeyed : Keyed used s) : IsolatedInMemory used s := by
  refine isolated_of_keys "bea:" "" (fun key msg => msg ∈ s.queue.deque key) hnames hclear
    (fun _ => Iff.rfl) ?_ ?_ (fun q t => mem_list_tenants)
  · intro key msg hmsg
    rw [← queue_key_eq]
    exact hkeyed.deque key msg hmsg
  · rintro t q msg ⟨now, hmsg⟩
    have htaken := (dequeue_cases s.queue now t q).2
    rw [hmsg] at htaken
    rw [← queue_key_eq]
    exact htaken.1

/-- An ambiguous key shows a tenant that has nothing in the queue. -/
theorem in_memory_shows_other {uuid4 : Uuid4} {used : Set (String × String)}
    (h : ∀ requests, (∀ request ∈ requests, Uses used request) →
      IsolatedInMemory used (handled uuid4 requests)) : Unambiguous used := by
  intro p hp p' hp' t hne heq
  have hisolated := h [.call 0 (.enqueue p.1 p.2 [] none)] (by simpa [Uses] using hp)
  have hkey : key_of "bea:" "" t p'.2 = queue_key p.1 p.2 := by
    rw [queue_key_eq, key_of_eq_iff, heq]
  have hdeque : ∀ key, (handled uuid4 [.call 0 (.enqueue p.1 p.2 [] none)]).queue.deque key =
      if key = queue_key p.1 p.2 then [⟨"msg_" ++ uuid4.hex12 0, p.1, p.2, [], 0, some 0⟩] else [] := by
    intro key
    show InMemoryQueueBackend.deque { new with queues := new.queues.set _ _ } key = _
    rw [deque_set]
    rfl
  obtain ⟨msg, ⟨key, hmsg⟩, -, hqueue⟩ := (hisolated.tenants p' hp' t).1
    (mem_list_tenants.2 ⟨hne, _, by rw [hdeque, if_pos hkey]; exact List.mem_singleton_self _⟩)
  rw [hdeque] at hmsg
  split at hmsg
  · rw [List.mem_singleton.1 hmsg] at hqueue
    exact hqueue
  · cases hmsg

end bid_evaluation.key_laws
