-- The keys of the Redis queue, when its calls come one after another: each
-- message stands in the pending list of its own tenant and queue, and the
-- registry has the key of that list.
import BidEvaluation.KeyLaws
import BidEvaluation.RedisLaws

open interleaving interleaving.Script bid_evaluation.values bid_evaluation.redis_queue
open bid_evaluation.queue_backend (QueueMessage tenant_in)
open bid_evaluation.key_laws (key_of Unambiguous Isolated Enqueued isolated_of_keys tenant_in_iff
  key_of_eq_iff)

namespace bid_evaluation.redis_keys

variable {env : Setting} {used : Set (String × String)}

/-! ## Sequences of calls -/

/-- The messages that the enqueues returned, oldest first. -/
structure RedisSession where
  redis : Redis
  tickets : Nat
  enqueued : List QueueMessage

def RedisSession.start : RedisSession := ⟨empty, 0, []⟩

inductive RedisRequest where
  | call (c : Call)
  | reset

def enqueuedBy : Call → Outcome → List QueueMessage
  | .enqueue _ _ _ _, .ok (some msg) => [msg]
  | _, _ => []

def ran (env : Setting) (s : RedisSession) (c : Call) : Redis × Outcome :=
  (code env s.tickets c).run (exec env.clock) s.redis

def handle (env : Setting) (s : RedisSession) : RedisRequest → RedisSession
  | .call c => ⟨(ran env s c).1, s.tickets + 1, s.enqueued ++ enqueuedBy c (ran env s c).2⟩
  | .reset => { s with redis := reset env.ns s.redis }

def handled (env : Setting) (requests : List RedisRequest) : RedisSession :=
  requests.foldl (handle env) RedisSession.start

/-- The calls that name a queue name a used one. -/
def Uses (used : Set (String × String)) : RedisRequest → Prop
  | .call (.enqueue tenant_id queue_name _ _) => (tenant_id, queue_name) ∈ used
  | .call (.dequeue tenant_id queue_name) => (tenant_id, queue_name) ∈ used
  | _ => True

/-! ## The invariant -/

def list_key (env : Setting) (data : MsgData) : String :=
  pending_key env.ns data.tenant_id data.queue_name

/-- The data of the messages, and the lists that they stand in. -/
structure Kept (env : Setting) (used : Set (String × String)) (enqueued : List QueueMessage)
    (tickets : Nat) (r : Redis) : Prop where
  own : ∀ id data, r.msgs id = some data → Enqueued used enqueued (data.message id)
  drawn : ∀ id data, r.msgs id = some data → ∃ n < tickets, id = env.message_id n
  tracked : ∀ id data, r.msgs id = some data →
    list_key env data ∈ r.registry ∧ msg_key env.ns id ∈ r.registry
  idx : ∀ id idx data, r.idx id = some idx → r.msgs id = some data →
    idx.tenant_id = data.tenant_id ∧ idx.queue_name = data.queue_name
  lists : ∀ key id, id ∈ r.lists key → ∃ data, r.msgs id = some data ∧
    data.status = .pending ∧ key = list_key env data
  nodup : ∀ key, (r.lists key).Nodup

variable {enqueued : List QueueMessage} {tickets : Nat} {r r' : Redis}

theorem kept_start (env : Setting) (used : Set (String × String)) : Kept env used [] 0 empty where
  own _ _ h := by cases h
  drawn _ _ h := by cases h
  tracked _ _ h := by cases h
  idx _ _ _ h _ := by cases h
  lists _ _ h := by cases h
  nodup _ := List.nodup_nil

/-- Lists in another order, or with less in them. -/
theorem Kept.relist (h : Kept env used enqueued tickets r) (hmsgs : r'.msgs = r.msgs)
    (hidx : r'.idx = r.idx) (hregistry : r.registry ⊆ r'.registry)
    (hnodup : ∀ key, (r'.lists key).Nodup) (hlists : ∀ key, r'.lists key ⊆ r.lists key) :
    Kept env used enqueued tickets r' where
  own id data hid := h.own id data (hmsgs ▸ hid)
  drawn id data hid := h.drawn id data (hmsgs ▸ hid)
  tracked id data hid := by
    obtain ⟨hlist, hmsg⟩ := h.tracked id data (hmsgs ▸ hid)
    exact ⟨hregistry hlist, hregistry hmsg⟩
  idx id idx data hidx' hid := h.idx id idx data (hidx ▸ hidx') (hmsgs ▸ hid)
  lists key id hin := by
    rw [hmsgs]
    exact h.lists key id (hlists key hin)
  nodup := hnodup

/-- New data of a message, which may leave its list or come back to it. -/
theorem Kept.change (h : Kept env used enqueued tickets r) {id : String} {data data' : MsgData}
    (hdata : r.msgs id = some data) (hmsgs : r'.msgs = Function.update r.msgs id (some data'))
    (htenant : data'.tenant_id = data.tenant_id) (hqueue : data'.queue_name = data.queue_name)
    (hidx : r'.idx = r.idx)
    (hregistry : r.registry ⊆ r'.registry) (hnodup : ∀ key, (r'.lists key).Nodup)
    (hlists : ∀ key id', id' ∈ r'.lists key → id' ≠ id ∧ id' ∈ r.lists key ∨
      id' = id ∧ data'.status = .pending ∧ key = list_key env data) :
    Kept env used enqueued tickets r' := by
  have hfound : ∀ id' data₁, r'.msgs id' = some data₁ → id' = id ∧ data₁ = data' ∨
      id' ≠ id ∧ r.msgs id' = some data₁ := by
    intro id' data₁ hid
    rw [hmsgs] at hid
    by_cases heq : id' = id
    · rw [heq, Function.update_self] at hid
      exact .inl ⟨heq, (Option.some.inj hid).symm⟩
    · rw [Function.update_of_ne heq] at hid
      exact .inr ⟨heq, hid⟩
  have hkey : list_key env data' = list_key env data := by
    unfold list_key
    rw [htenant, hqueue]
  constructor
  · intro id' data₁ hid
    rcases hfound id' data₁ hid with ⟨rfl, rfl⟩ | ⟨-, hid⟩
    · exact (h.own id' data hdata).mono (List.Subset.refl _) rfl htenant hqueue
    · exact h.own id' data₁ hid
  · intro id' data₁ hid
    rcases hfound id' data₁ hid with ⟨rfl, rfl⟩ | ⟨-, hid⟩
    · exact h.drawn id' data hdata
    · exact h.drawn id' data₁ hid
  · intro id' data₁ hid
    rcases hfound id' data₁ hid with ⟨rfl, rfl⟩ | ⟨-, hid⟩
    · obtain ⟨hlist, hmsg⟩ := h.tracked id' data hdata
      exact ⟨hregistry (hkey ▸ hlist), hregistry hmsg⟩
    · obtain ⟨hlist, hmsg⟩ := h.tracked id' data₁ hid
      exact ⟨hregistry hlist, hregistry hmsg⟩
  · intro id' idx data₁ hidx' hid
    rw [hidx] at hidx'
    rcases hfound id' data₁ hid with ⟨rfl, rfl⟩ | ⟨-, hid⟩
    · rw [htenant, hqueue]
      exact h.idx id' idx data hidx' hdata
    · exact h.idx id' idx data₁ hidx' hid
  · intro key id' hin
    rw [hmsgs]
    rcases hlists key id' hin with ⟨hne, hin⟩ | ⟨rfl, hpending, hlist⟩
    · rw [Function.update_of_ne hne]
      exact h.lists key id' hin
    · rw [Function.update_self]
      exact ⟨data', rfl, hpending, hlist.trans hkey.symm⟩
  · exact hnodup

theorem Kept.mono {enqueued' : List QueueMessage} {tickets' : Nat}
    (h : Kept env used enqueued tickets r) (henqueued : enqueued ⊆ enqueued')
    (htickets : tickets ≤ tickets') : Kept env used enqueued' tickets' r :=
  { h with
    own := fun id data hid => (h.own id data hid).mono henqueued rfl rfl rfl
    drawn := fun id data hid => by
      obtain ⟨n, hn, heq⟩ := h.drawn id data hid
      exact ⟨n, by omega, heq⟩ }

/-- What an enqueue writes. -/
def written (env : Setting) (ticket : Nat) (data : MsgData) (r : Redis) : Redis :=
  { r with
    idx := Function.update r.idx (env.message_id ticket) (some ⟨data.tenant_id, data.queue_name⟩)
    msgs := Function.update r.msgs (env.message_id ticket) (some data)
    lists := Function.update r.lists (list_key env data)
      (r.lists (list_key env data) ++ [env.message_id ticket])
    registry := r.registry ∪ [list_key env data,
      inflight_key env.ns data.tenant_id data.queue_name, idx_key env.ns (env.message_id ticket),
      msg_key env.ns (env.message_id ticket)].toFinset }

/-- A new message at the end of its list. -/
theorem Kept.written (h : Kept env used enqueued tickets r) {data : MsgData}
    (hused : (data.tenant_id, data.queue_name) ∈ used) (hpending : data.status = .pending) :
    Kept env used (enqueued ++ [data.message (env.message_id tickets)]) (tickets + 1)
      (written env tickets data r) := by
  generalize hr' : redis_keys.written env tickets data r = r'
  have hmsgs : r'.msgs = Function.update r.msgs (env.message_id tickets) (some data) := by
    rw [← hr']
    rfl
  have hidx : r'.idx = Function.update r.idx (env.message_id tickets)
      (some ⟨data.tenant_id, data.queue_name⟩) := by
    rw [← hr']
    rfl
  have hlists : r'.lists = Function.update r.lists (list_key env data)
      (r.lists (list_key env data) ++ [env.message_id tickets]) := by
    rw [← hr']
    rfl
  have hregistry : r.registry ⊆ r'.registry := by
    rw [← hr']
    exact Finset.subset_union_left
  have htracked : list_key env data ∈ r'.registry ∧
      msg_key env.ns (env.message_id tickets) ∈ r'.registry := by
    rw [← hr']
    simp [redis_keys.written]
  have hfresh : ∀ id data₁, r.msgs id = some data₁ → id ≠ env.message_id tickets := by
    rintro _ data₁ hid rfl
    obtain ⟨n, hn, heq⟩ := h.drawn _ data₁ hid
    have := message_id_inj env heq
    omega
  have hfound : ∀ id data₁, r'.msgs id = some data₁ →
      id = env.message_id tickets ∧ data₁ = data ∨ r.msgs id = some data₁ := by
    intro id data₁ hid
    rw [hmsgs] at hid
    by_cases heq : id = env.message_id tickets
    · rw [heq, Function.update_self] at hid
      exact .inl ⟨heq, (Option.some.inj hid).symm⟩
    · rw [Function.update_of_ne heq] at hid
      exact .inr hid
  have hnew : ∀ key, env.message_id tickets ∉ r.lists key := by
    intro key hin
    obtain ⟨data₁, hid, -⟩ := h.lists key _ hin
    exact hfresh _ data₁ hid rfl
  constructor
  · intro id data₁ hid
    rcases hfound id data₁ hid with ⟨rfl, rfl⟩ | hid
    · exact ⟨hused, _, by simp, rfl, rfl, rfl⟩
    · exact (h.own id data₁ hid).mono (List.subset_append_left _ _) rfl rfl rfl
  · intro id data₁ hid
    rcases hfound id data₁ hid with ⟨rfl, rfl⟩ | hid
    · exact ⟨tickets, by omega, rfl⟩
    · obtain ⟨n, hn, heq⟩ := h.drawn id data₁ hid
      exact ⟨n, by omega, heq⟩
  · intro id data₁ hid
    rcases hfound id data₁ hid with ⟨rfl, rfl⟩ | hid
    · exact htracked
    · obtain ⟨hlist, hmsg⟩ := h.tracked id data₁ hid
      exact ⟨hregistry hlist, hregistry hmsg⟩
  · intro id idx data₁ hidx' hid
    rw [hidx] at hidx'
    rcases hfound id data₁ hid with ⟨rfl, rfl⟩ | hid
    · rw [Function.update_self] at hidx'
      cases hidx'
      exact ⟨rfl, rfl⟩
    · rw [Function.update_of_ne (hfresh id data₁ hid)] at hidx'
      exact h.idx id idx data₁ hidx' hid
  · intro key id hin
    rw [hlists] at hin
    have hcases : id = env.message_id tickets ∧ key = list_key env data ∨ id ∈ r.lists key := by
      by_cases hkey : key = list_key env data
      · rw [hkey, Function.update_self] at hin
        rcases List.mem_append.1 hin with hin | hin
        · exact .inr (hkey ▸ hin)
        · exact .inl ⟨List.mem_singleton.1 hin, hkey⟩
      · rw [Function.update_of_ne hkey] at hin
        exact .inr hin
    rw [hmsgs]
    rcases hcases with ⟨rfl, hkey⟩ | hin
    · rw [Function.update_self]
      exact ⟨data, rfl, hpending, hkey⟩
    · obtain ⟨data₁, hid, hrest⟩ := h.lists key id hin
      rw [Function.update_of_ne (hfresh id data₁ hid)]
      exact ⟨data₁, hid, hrest⟩
  · intro key
    rw [hlists]
    by_cases hkey : key = list_key env data
    · rw [hkey, Function.update_self]
      exact (h.nodup _).append (List.nodup_singleton _)
        (List.disjoint_singleton.2 (hnew _))
    · rw [Function.update_of_ne hkey]
      exact h.nodup key

/-! ## The calls -/

theorem track_keys_run (env : Setting) (keys : List String) (r : Redis) :
    (track_keys keys).run (exec env.clock) r =
      ({ r with registry := r.registry ∪ keys.toFinset }, ()) := by
  induction keys generalizing r with
  | nil => simp [track_keys]
  | cons key keys ih =>
    show (track_keys keys).run (exec env.clock) { r with registry := insert key r.registry } = _
    rw [ih]
    simp [Finset.insert_union]

/-- `stands key msg`: the message is pending in the list under the key. -/
def Stands (r : Redis) (key : String) (msg : QueueMessage) : Prop :=
  ∃ id ∈ r.lists key, ∃ data, r.msgs id = some data ∧ msg = data.message id

/-- What stands after the first reads of an enqueue. -/
theorem enqueue_run (env : Setting) (tickets : Nat) (r : Redis) (tenant_id queue_name : String)
    (payload : PyDict) (available_at : Option Int) :
    (∃ e, (enqueue env.ns (env.uuid4.hex12 tickets) tenant_id queue_name payload
        available_at).run (exec env.clock) r = (r, .error e)) ∨
      ∃ data r₁, data.tenant_id = tenant_id ∧ data.queue_name = queue_name ∧
        data.status = .pending ∧ (r₁ = r ∨ r₁ = { r with ticks := r.ticks + 1 }) ∧
        (enqueue env.ns (env.uuid4.hex12 tickets) tenant_id queue_name payload
          available_at).run (exec env.clock) r =
            (written env tickets data r₁, .ok (some (data.message (env.message_id tickets)))) := by
  unfold redis_queue.enqueue
  rcases (payload.getD "attempt" (.int 0)).toInt with e | attempt
  · exact .inl ⟨e, rfl⟩
  · right
    cases available_at with
    | some due =>
      refine ⟨⟨tenant_id, queue_name, payload, attempt, .pending, due⟩, r, rfl, rfl, rfl,
        .inl rfl, ?_⟩
      simp only [send, request_bind, pure_bind, run, run_bind, track_keys_run, run_pure, exec]
      rfl
    | none =>
      refine ⟨⟨tenant_id, queue_name, payload, attempt, .pending, env.clock r.ticks⟩,
        { r with ticks := r.ticks + 1 }, rfl, rfl, rfl, .inr rfl, ?_⟩
      simp only [send, request_bind, run, run_bind, track_keys_run, run_pure, exec]
      rfl

theorem Kept.ticked (h : Kept env used enqueued tickets r) :
    Kept env used enqueued tickets { r with ticks := r.ticks + 1 } :=
  h.relist rfl rfl (fun _ hk => hk) h.nodup fun _ _ hid => hid

theorem Kept.enqueue (h : Kept env used enqueued tickets r) (tenant_id queue_name : String)
    (payload : PyDict) (available_at : Option Int) (hused : (tenant_id, queue_name) ∈ used) :
    Kept env used
      (enqueued ++ enqueuedBy (.enqueue tenant_id queue_name payload available_at)
        ((code env tickets (.enqueue tenant_id queue_name payload available_at)).run
          (exec env.clock) r).2) (tickets + 1)
      ((code env tickets (.enqueue tenant_id queue_name payload available_at)).run
        (exec env.clock) r).1 := by
  unfold code
  dsimp only
  rcases enqueue_run env tickets r tenant_id queue_name payload available_at with
    ⟨e, hrun⟩ | ⟨data, r₁, rfl, rfl, hpending, hr₁, hrun⟩
  · rw [hrun]
    exact h.mono (List.subset_append_left _ _) (by omega)
  · rw [hrun]
    rcases hr₁ with rfl | rfl
    · exact h.written hused hpending
    · exact h.ticked.written hused hpending

/-- A message leaves the list that it heads. -/
theorem Kept.popped (h : Kept env used enqueued tickets r) {key id : String} {rest : List String}
    (hlist : r.lists key = id :: rest) :
    Kept env used enqueued tickets { r with lists := Function.update r.lists key rest } := by
  refine h.relist rfl rfl (fun _ hk => hk) ?_ ?_
  · intro key'
    by_cases hkey : key' = key
    · subst hkey
      dsimp only
      rw [Function.update_self]
      exact (hlist ▸ h.nodup key').of_cons
    · dsimp only
      rw [Function.update_of_ne hkey]
      exact h.nodup key'
  · intro key' id' hin
    by_cases hkey : key' = key
    · subst hkey
      dsimp only at hin
      rw [Function.update_self] at hin
      rw [hlist]
      exact List.mem_cons_of_mem _ hin
    · dsimp only at hin
      rwa [Function.update_of_ne hkey] at hin

theorem scan_run (env : Setting) (tenant_id queue_name : String) (left : Nat)
    (h : Kept env used enqueued tickets r) :
    Kept env used enqueued tickets
        ((scan env.ns tenant_id queue_name left).run (exec env.clock) r).1 ∧
      ∀ msg, ((scan env.ns tenant_id queue_name left).run (exec env.clock) r).2 = .ok (some msg) →
        Stands r (pending_key env.ns tenant_id queue_name) msg := by
  induction left generalizing r with
  | zero => exact ⟨h, fun _ hmsg => by cases hmsg⟩
  | succ left ih =>
    rw [scan]
    generalize pending_key env.ns tenant_id queue_name = key at *
    simp only [send, request_bind, run, exec]
    rcases hlist : r.lists key with _ | ⟨id, rest⟩
    · have hsame : Function.update r.lists key [] = r.lists := by
        rw [← hlist, Function.update_eq_self]
      simp only [List.head?_nil, List.tail_nil, run_pure, hsame]
      exact ⟨h, fun _ hmsg => by cases hmsg⟩
    · obtain ⟨data, hdata, hpending, rfl⟩ := h.lists key id (hlist ▸ List.mem_cons_self)
      simp only [List.head?_cons, List.tail_cons]
      by_cases hid : id = ""
      · rw [if_pos hid]
        exact ⟨h.popped hlist, fun _ hmsg => by cases hmsg⟩
      · simp only [if_neg hid, run, exec, hdata, is_available, send, request_bind]
        simp only [run_bind, run, exec, run_pure]
        have hnew : ∀ key', id ∉ Function.update r.lists (list_key env data) rest key' := by
          intro key' hin
          have hhead : id ∉ rest := (List.nodup_cons.1 (hlist ▸ h.nodup (list_key env data))).1
          obtain ⟨data', hdata', -, hkey⟩ := (h.popped hlist).lists key' id hin
          obtain rfl := Option.some.inj (hdata.symm.trans hdata')
          rw [hkey, Function.update_self] at hin
          exact hhead hin
        have hold : ∀ key', Function.update r.lists (list_key env data) rest key' ⊆
            r.lists key' := by
          intro key'
          by_cases hkey : key' = list_key env data
          · rw [hkey, Function.update_self, hlist]
            exact List.subset_cons_self _ _
          · rw [Function.update_of_ne hkey]
            exact List.Subset.refl _
        by_cases hdue : data.available_at ≤ env.clock r.ticks
        · simp only [hdue, decide_true, if_true, run, run_bind, exec, track_keys_run, run_pure]
          refine ⟨?_, ?_⟩
          · refine h.change hdata rfl rfl rfl rfl Finset.subset_union_left (h.popped hlist).nodup ?_
            intro key' id' hin
            exact .inl ⟨fun heq => hnew key' (heq ▸ hin), hold key' hin⟩
          · intro msg hmsg
            cases hmsg
            exact ⟨id, hlist ▸ List.mem_cons_self, data, hdata, rfl⟩
        · simp only [hdue, decide_false, Bool.false_eq_true, if_false, run, exec,
            Function.update_self, Function.update_idem]
          have hperm : ∀ key', (Function.update r.lists (list_key env data) (rest ++ [id])
              key').Perm (r.lists key') := by
            intro key'
            by_cases hkey : key' = list_key env data
            · rw [hkey, Function.update_self, hlist]
              exact (List.perm_append_singleton id rest)
            · rw [Function.update_of_ne hkey]
          have hrotated : Kept env used enqueued tickets
              { r with
                lists := Function.update r.lists (list_key env data) (rest ++ [id])
                ticks := r.ticks + 1 } := by
            refine h.relist rfl rfl (fun _ hk => hk) ?_ fun key' id' hin => (hperm key').subset hin
            exact fun key' => (hperm key').nodup_iff.2 (h.nodup key')
          obtain ⟨hkept, hgiven⟩ := ih hrotated
          refine ⟨hkept, ?_⟩
          intro msg hmsg
          obtain ⟨id', hin, data', hdata', hmsg'⟩ := hgiven msg hmsg
          exact ⟨id', (hperm _).subset hin, data', hdata', hmsg'⟩

theorem dequeue_run (env : Setting) (tenant_id queue_name : String)
    (h : Kept env used enqueued tickets r) :
    Kept env used enqueued tickets
        ((dequeue env.ns tenant_id queue_name).run (exec env.clock) r).1 ∧
      ∀ msg, ((dequeue env.ns tenant_id queue_name).run (exec env.clock) r).2 = .ok (some msg) →
        Stands r (pending_key env.ns tenant_id queue_name) msg :=
  scan_run env tenant_id queue_name _ h

/-- `ack` and `nack` write only about a message in flight. -/
theorem with_inflight_run (clock : Nat → Int) (r : Redis) (tenant_id message_id : String)
    (rest : Idx → MsgData → RedisM Outcome) :
    ((with_inflight tenant_id message_id rest).run (exec clock) r).1 = r ∨
      ∃ idx data, r.idx message_id = some idx ∧ idx.tenant_id = tenant_id ∧
        r.msgs message_id = some data ∧ data.status = .inflight ∧
        (with_inflight tenant_id message_id rest).run (exec clock) r =
          (rest idx data).run (exec clock) r := by
  unfold with_inflight load_idx
  simp only [send, request_bind, run_bind, run, exec]
  rcases hidx : r.idx message_id with _ | idx
  · exact .inl rfl
  · dsimp only
    by_cases hnames : idx.tenant_id = "" ∨ idx.queue_name = ""
    · rw [if_pos hnames]
      exact .inl rfl
    · rw [if_neg hnames]
      simp only [run_pure]
      by_cases howner : idx.tenant_id = tenant_id
      · simp only [howner, ne_eq, not_true_eq_false, if_false, run, exec]
        rcases hdata : r.msgs message_id with _ | data
        · exact .inl rfl
        · dsimp only
          by_cases hstatus : data.status = .inflight
          · simp only [hstatus, not_true_eq_false, if_false]
            exact .inr ⟨idx, data, rfl, howner, rfl, hstatus, rfl⟩
          · simp only [hstatus, not_false_eq_true, if_true]
            exact .inl rfl
      · simp only [howner, ne_eq, not_false_eq_true, if_true]
        exact .inl rfl

/-- A message in flight stands in no list. -/
theorem Kept.unlisted (h : Kept env used enqueued tickets r) {id : String} {data : MsgData}
    (hdata : r.msgs id = some data) (hstatus : data.status = .inflight) (key : String) :
    id ∉ r.lists key := by
  intro hin
  obtain ⟨data', hdata', hpending, -⟩ := h.lists key id hin
  obtain rfl := Option.some.inj (hdata.symm.trans hdata')
  rw [hstatus] at hpending
  cases hpending

/-- The data of a message that stands in no list is deleted. -/
theorem Kept.forget (h : Kept env used enqueued tickets r) {id : String}
    (hmsgs : r'.msgs = Function.update r.msgs id none)
    (hidx : r'.idx = Function.update r.idx id none) (hregistry : r'.registry = r.registry)
    (hlists : r'.lists = r.lists) (hunlisted : ∀ key id', id' ∈ r.lists key → id' ≠ id) :
    Kept env used enqueued tickets r' := by
  have hfound : ∀ id' data, r'.msgs id' = some data → r.msgs id' = some data := by
    intro id' data hid
    rw [hmsgs] at hid
    by_cases heq : id' = id
    · rw [heq, Function.update_self] at hid
      cases hid
    · rwa [Function.update_of_ne heq] at hid
  constructor
  · exact fun id' data hid => h.own id' data (hfound id' data hid)
  · exact fun id' data hid => h.drawn id' data (hfound id' data hid)
  · intro id' data hid
    rw [hregistry]
    exact h.tracked id' data (hfound id' data hid)
  · intro id' idx data hidx' hid
    rw [hidx] at hidx'
    by_cases heq : id' = id
    · rw [heq, Function.update_self] at hidx'
      cases hidx'
    · rw [Function.update_of_ne heq] at hidx'
      exact h.idx id' idx data hidx' (hfound id' data hid)
  · intro key id' hin
    rw [hlists] at hin
    rw [hmsgs, Function.update_of_ne (hunlisted key id' hin)]
    exact h.lists key id' hin
  · rw [hlists]
    exact h.nodup

theorem Kept.ack (h : Kept env used enqueued tickets r) (tenant_id message_id : String) :
    Kept env used enqueued tickets
      ((ack env.ns tenant_id message_id).run (exec env.clock) r).1 := by
  unfold redis_queue.ack
  rcases with_inflight_run env.clock r tenant_id message_id _ with
    hsame | ⟨idx, data, hidx, howner, hdata, hstatus, hrun⟩
  · rw [hsame]
    exact h
  · rw [hrun]
    simp only [send, request_bind, run, exec, run_pure]
    exact h.forget rfl rfl rfl rfl fun key id hin heq => h.unlisted hdata hstatus key (heq ▸ hin)

theorem Kept.nack (h : Kept env used enqueued tickets r) (tenant_id message_id : String)
    (requeue : Bool) (delay_ms : Int) :
    Kept env used enqueued tickets
      ((nack env.ns tenant_id message_id requeue delay_ms).run (exec env.clock) r).1 := by
  unfold redis_queue.nack
  rcases with_inflight_run env.clock r tenant_id message_id _ with
    hsame | ⟨idx, data, hidx, howner, hdata, hstatus, hrun⟩
  · rw [hsame]
    exact h
  · rw [hrun]
    obtain ⟨htenant, hqueue⟩ := h.idx message_id idx data hidx hdata
    cases requeue with
    | false =>
      simp only [send, request_bind, Bool.false_eq_true, if_false, run, exec, run_pure]
      refine h.change hdata rfl rfl rfl rfl (fun _ hk => hk) h.nodup ?_
      intro key id hin
      exact .inl ⟨fun heq => h.unlisted hdata hstatus key (heq ▸ hin), hin⟩
    | true =>
      simp only [send, request_bind, if_true, run, exec, run_pure]
      have hkey : pending_key env.ns tenant_id idx.queue_name = list_key env data := by
        rw [list_key, ← htenant, ← hqueue, howner]
      rw [hkey]
      refine h.change hdata rfl rfl rfl rfl (fun _ hk => hk) ?_ ?_
      · intro key
        by_cases hlist : key = list_key env data
        · rw [hlist]
          dsimp only
          rw [Function.update_self]
          exact List.nodup_cons.2 ⟨h.unlisted hdata hstatus _, h.nodup _⟩
        · dsimp only
          rw [Function.update_of_ne hlist]
          exact h.nodup key
      · intro key id hin
        dsimp only at hin
        by_cases hlist : key = list_key env data
        · rw [hlist, Function.update_self] at hin
          rcases List.mem_cons.1 hin with rfl | hin
          · exact .inr ⟨rfl, rfl, hlist⟩
          · exact .inl ⟨fun heq => h.unlisted hdata hstatus _ (heq ▸ hin), hlist ▸ hin⟩
        · rw [Function.update_of_ne hlist] at hin
          exact .inl ⟨fun heq => h.unlisted hdata hstatus key (heq ▸ hin), hin⟩

theorem Kept.reset (h : Kept env used enqueued tickets r) :
    Kept env used enqueued tickets (reset env.ns r) := by
  -- The registry has the key of each message and of its list.
  have hmsgs : ∀ id, (redis_queue.reset env.ns r).msgs id = none := by
    intro id
    unfold redis_queue.reset
    dsimp only
    rcases hdata : r.msgs id with _ | data
    · rw [ite_self]
    · rw [if_pos (h.tracked id data hdata).2]
  have hlists : ∀ key, (redis_queue.reset env.ns r).lists key = [] := by
    intro key
    unfold redis_queue.reset
    dsimp only
    rcases hlist : r.lists key with _ | ⟨id, rest⟩
    · rw [ite_self]
    · obtain ⟨data, hdata, -, rfl⟩ := h.lists key id (hlist ▸ List.mem_cons_self)
      rw [if_pos (h.tracked id data hdata).1]
  constructor
  · intro id data hid
    rw [hmsgs] at hid
    cases hid
  · intro id data hid
    rw [hmsgs] at hid
    cases hid
  · intro id data hid
    rw [hmsgs] at hid
    cases hid
  · intro id idx data _ hid
    rw [hmsgs] at hid
    cases hid
  · intro key id hin
    rw [hlists] at hin
    cases hin
  · intro key
    rw [hlists]
    exact List.nodup_nil

/-! ## Sessions -/

def RedisSession.Kept (env : Setting) (used : Set (String × String)) (s : RedisSession) : Prop :=
  redis_keys.Kept env used s.enqueued s.tickets s.redis

theorem kept_handle (env : Setting) {s : RedisSession} (h : s.Kept env used)
    (request : RedisRequest) (huses : Uses used request) : (handle env s request).Kept env used := by
  cases request with
  | reset => exact h.reset
  | call c =>
    cases c with
    | enqueue tenant_id queue_name payload available_at =>
      exact Kept.enqueue h tenant_id queue_name payload available_at huses
    | dequeue tenant_id queue_name =>
      exact (dequeue_run env tenant_id queue_name h).1.mono (List.subset_append_left _ _)
        (Nat.le_succ _)
    | ack tenant_id message_id =>
      exact (Kept.ack h tenant_id message_id).mono (List.subset_append_left _ _) (Nat.le_succ _)
    | nack tenant_id message_id requeue delay_ms =>
      exact (Kept.nack h tenant_id message_id requeue delay_ms).mono
        (List.subset_append_left _ _) (Nat.le_succ _)

theorem kept_handled (env : Setting) (requests : List RedisRequest)
    (huses : ∀ request ∈ requests, Uses used request) : (handled env requests).Kept env used := by
  unfold handled
  induction requests using List.reverseRecOn with
  | nil => exact kept_start env used
  | append_singleton before request ih =>
    rw [List.foldl_concat]
    exact kept_handle env (ih fun r hr => huses r (by simp [hr])) request (huses request (by simp))

/-- What the Redis queue shows after these requests. -/
def IsolatedInRedis (env : Setting) (used : Set (String × String)) (s : RedisSession) : Prop :=
  Isolated used s.enqueued (fun msg => ∃ key, Stands s.redis key msg)
    (fun tenant_id queue_name msg =>
      (ran env s (.dequeue tenant_id queue_name)).2 = .ok (some msg))
    (list_tenants env.ns s.redis)

theorem pending_key_eq (ns tenant_id queue_name : String) :
    pending_key ns tenant_id queue_name = key_of (ns ++ ":") ":pending" tenant_id queue_name := by
  simp [pending_key, key_of, String.append_assoc]

theorem mem_list_tenants {ns queue_name tenant_id : String} (r : Redis)
    (htracked : ∀ key, r.lists key ≠ [] → key ∈ r.registry) :
    tenant_id ∈ list_tenants ns r queue_name ↔ tenant_id ≠ "" ∧
      r.lists (key_of (ns ++ ":") ":pending" tenant_id queue_name) ≠ [] := by
  have hcut : ∀ key, tenant_in (ns ++ ":") (":queue:" ++ queue_name ++ ":pending") key =
      some tenant_id ↔
        tenant_id ≠ "" ∧ key = key_of (ns ++ ":") ":pending" tenant_id queue_name := by
    intro key
    rw [tenant_in_iff, key_of]
  unfold list_tenants
  rw [Finset.mem_sort, Finset.mem_biUnion]
  constructor
  · rintro ⟨key, -, hin⟩
    split at hin
    · cases hin
    · rename_i hlist
      obtain ⟨hne, rfl⟩ := (hcut key).1 (Option.mem_toFinset.1 hin)
      exact ⟨hne, by simpa using hlist⟩
  · rintro ⟨hne, hlist⟩
    refine ⟨_, htracked _ hlist, ?_⟩
    rw [if_neg (by simpa using hlist)]
    exact Option.mem_toFinset.2 ((hcut _).2 ⟨hne, rfl⟩)

theorem Kept.lists_tracked (h : Kept env used enqueued tickets r) (key : String)
    (hlist : r.lists key ≠ []) : key ∈ r.registry := by
  obtain ⟨id, hin⟩ := List.exists_mem_of_ne_nil _ hlist
  obtain ⟨data, hdata, -, rfl⟩ := h.lists key id hin
  exact (h.tracked id data hdata).1

theorem redis_isolated {s : RedisSession} (hnames : ∀ p ∈ used, p.1 ≠ "")
    (hclear : Unambiguous used) (h : s.Kept env used) : IsolatedInRedis env used s := by
  have hfound : ∀ key id, id ∈ s.redis.lists key → ∃ data, s.redis.msgs id = some data ∧
      key = list_key env data := by
    intro key id hin
    obtain ⟨data, hdata, -, hkey⟩ := Kept.lists h key id hin
    exact ⟨data, hdata, hkey⟩
  refine isolated_of_keys (env.ns ++ ":") ":pending" (Stands s.redis) hnames hclear
    (fun _ => Iff.rfl) ?_ ?_ ?_
  · rintro key msg ⟨id, hin, data, hdata, rfl⟩
    obtain ⟨data', hdata', rfl⟩ := hfound key id hin
    obtain rfl := Option.some.inj (hdata.symm.trans hdata')
    exact ⟨pending_key_eq _ _ _, Kept.own h id data hdata⟩
  · intro t q msg hmsg
    rw [← pending_key_eq]
    exact (dequeue_run env t q h).2 msg hmsg
  · intro q t
    rw [mem_list_tenants _ (Kept.lists_tracked h)]
    refine and_congr_right fun _ => ⟨?_, ?_⟩
    · intro hlist
      obtain ⟨id, hin⟩ := List.exists_mem_of_ne_nil _ hlist
      obtain ⟨data, hdata, -⟩ := hfound _ id hin
      exact ⟨_, id, hin, data, hdata, rfl⟩
    · rintro ⟨msg, id, hin, -⟩
      exact List.ne_nil_of_mem hin

theorem redis_shows_other {env : Setting} {used : Set (String × String)}
    (h : ∀ requests, (∀ request ∈ requests, Uses used request) →
      IsolatedInRedis env used (handled env requests)) : Unambiguous used := by
  intro p hp p' hp' t hne heq
  have huses : ∀ request ∈ [.call (.enqueue p.1 p.2 [] (some 0))], Uses used request := by
    simpa [Uses] using hp
  have hisolated := h _ huses
  have hkept := kept_handled env _ huses
  generalize hdata₀ : (⟨p.1, p.2, [], 0, .pending, 0⟩ : MsgData) = data₀
  have hlists : (handled env [.call (.enqueue p.1 p.2 [] (some 0))]).redis.lists =
      Function.update (fun _ => []) (list_key env data₀) [env.message_id 0] := by
    rw [← hdata₀]
    rfl
  have hmsgs : (handled env [.call (.enqueue p.1 p.2 [] (some 0))]).redis.msgs =
      Function.update (fun _ => none) (env.message_id 0) (some data₀) := by
    rw [← hdata₀]
    rfl
  have hlisted : t ∈ list_tenants env.ns
      (handled env [.call (.enqueue p.1 p.2 [] (some 0))]).redis p'.2 := by
    have hkey : key_of (env.ns ++ ":") ":pending" t p'.2 = list_key env data₀ := by
      rw [← hdata₀, list_key, pending_key_eq, key_of_eq_iff, heq]
    rw [mem_list_tenants _ hkept.lists_tracked, hkey, hlists, Function.update_self]
    exact ⟨hne, List.cons_ne_nil _ _⟩
  obtain ⟨_, ⟨key, id, hin, data, hdata, rfl⟩, -, hqueue⟩ := (hisolated.tenants p' hp' t).1 hlisted
  have hid : id = env.message_id 0 := by
    by_contra hid
    rw [hmsgs, Function.update_of_ne hid] at hdata
    cases hdata
  rw [hmsgs, hid, Function.update_self] at hdata
  cases hdata
  rw [← hqueue, ← hdata₀]
  rfl

/-! ## Both queues -/

/-- The queues are isolated in all their runs exactly when no key of theirs
can be read with another of the queue names. -/
theorem isolated_iff_unambiguous (uuid4 : Uuid4) (env : Setting) (used : Set (String × String))
    (hnames : ∀ p ∈ used, p.1 ≠ "") :
    ((∀ requests, (∀ request ∈ requests, key_laws.Uses used request) →
        key_laws.IsolatedInMemory used (key_laws.handled uuid4 requests)) ↔ Unambiguous used) ∧
      ((∀ requests, (∀ request ∈ requests, Uses used request) →
        IsolatedInRedis env used (handled env requests)) ↔ Unambiguous used) := by
  constructor
  · constructor
    · exact key_laws.in_memory_shows_other
    · intro hclear requests huses
      exact key_laws.in_memory_isolated hnames hclear
        (key_laws.keyed_handled uuid4 requests huses)
  · constructor
    · exact redis_shows_other
    · intro hclear requests huses
      exact redis_isolated hnames hclear (kept_handled env requests huses)

/-- Two tenants that share the queue of the parse jobs. -/
def parse_queues : Set (String × String) := {("acme", "parse"), ("globex", "parse")}

theorem parse_queues_are_isolated :
    (∀ requests, (∀ request ∈ requests, key_laws.Uses parse_queues request) →
      key_laws.IsolatedInMemory parse_queues (key_laws.handled Uuid4.unary requests)) ∧
    ∀ requests, (∀ request ∈ requests, Uses parse_queues request) →
      IsolatedInRedis plain_setting parse_queues (handled plain_setting requests) := by
  have hnames : ∀ p ∈ parse_queues, p.1 ≠ "" := by
    rintro p (rfl | rfl) <;> decide
  have hclear : Unambiguous parse_queues := by
    apply key_laws.unambiguous_of_plain
    rintro p (rfl | rfl) <;> decide
  obtain ⟨hmemory, hredis⟩ :=
    isolated_iff_unambiguous Uuid4.unary plain_setting parse_queues hnames
  exact ⟨hmemory.2 hclear, hredis.2 hclear⟩

/-- Two queues of two tenants whose keys are one. -/
def clashing_queues : Set (String × String) := {("a:queue:b", "c"), ("a", "b:queue:c")}

theorem other_tenant_gets_the_message :
    ¬ key_laws.IsolatedInMemory clashing_queues (key_laws.handled Uuid4.unary
        [.call 0 (.enqueue "a:queue:b" "c" [] none)]) ∧
      ¬ IsolatedInRedis plain_setting clashing_queues (handled plain_setting
        [.call (.enqueue "a:queue:b" "c" [] none)]) := by
  have hused : ("a", "b:queue:c") ∈ clashing_queues := .inr rfl
  constructor
  · intro hisolated
    have hgiven : (queue_backend.dequeue (key_laws.handled Uuid4.unary
        [.call 0 (.enqueue "a:queue:b" "c" [] none)]).queue 0 "a" "b:queue:c").2 =
          some ⟨"msg_", "a:queue:b", "c", [], 0, some 0⟩ := by rfl
    obtain ⟨first, hin, -, htenant, -⟩ := hisolated.own ("a", "b:queue:c") hused _ ⟨0, hgiven⟩
    obtain rfl := List.mem_singleton.1 hin
    exact absurd htenant (by decide)
  · intro hisolated
    have hgiven : (ran plain_setting (handled plain_setting
        [.call (.enqueue "a:queue:b" "c" [] none)]) (.dequeue "a" "b:queue:c")).2 =
          .ok (some ⟨"msg_", "a:queue:b", "c", [], 0, some 0⟩) := by rfl
    obtain ⟨first, hin, -, htenant, -⟩ := hisolated.own ("a", "b:queue:c") hused _ hgiven
    obtain rfl := List.mem_singleton.1 hin
    exact absurd htenant (by decide)

end bid_evaluation.redis_keys
