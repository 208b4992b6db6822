-- The safety of the Redis queue under every interleaving of its commands. A
-- dequeue takes a message out of the pending list before it puts it into
-- the inflight set, so the message is in neither of them in between.
import BidEvaluation.RedisQueue

open interleaving bid_evaluation.values bid_evaluation.queue_backend

namespace bid_evaluation.redis_queue

/-! ## What a safe state is -/

abbrev RedisEvent := Event Command Call Outcome

/-- The tenant, the queue and the id of a message, when an enqueue puts it
into the pending list of its queue. -/
def enqueueOf : RedisEvent → Option (String × String × String)
  | .ran _ (.enqueue tenant_id queue_name _ _) (.rpush _ id) => some (tenant_id, queue_name, id)
  | _ => none

/-- The id of a message, when an ack, or a nack that does not requeue, takes
it out of the inflight set. -/
def endOf : RedisEvent → Option String
  | .ran _ (.ack _ _) (.srem _ id) => some id
  | .ran _ (.nack _ _ false _) (.srem _ id) => some id
  | _ => none

/-- The id of a message, when a dequeue returns it. -/
def deliveryOf : RedisEvent → Option String
  | .returned _ (.dequeue _ _) (.ok (some msg)) => some msg.message_id
  | _ => none

def enqueued (log : List RedisEvent) : List (String × String × String) :=
  log.filterMap enqueueOf

def ended (log : List RedisEvent) : List String := log.filterMap endOf

/-- A message that was enqueued, and that no call has acked or discarded. -/
def Live (log : List RedisEvent) (tenant_id queue_name id : String) : Prop :=
  (tenant_id, queue_name, id) ∈ enqueued log ∧ id ∉ ended log

structure Safe (env : Setting) {π : Type} (s : RedisSystem π) : Prop where
  /-- A live message is in the pending list or in the inflight set. -/
  found : ∀ tenant_id queue_name id, Live s.log tenant_id queue_name id →
    id ∈ s.shared.lists (pending_key env.ns tenant_id queue_name) ∨
      id ∈ s.shared.sets (inflight_key env.ns tenant_id queue_name)
  /-- A message is not delivered after it has ended. -/
  not_again : ∀ before after e id, s.log = before ++ e :: after → deliveryOf e = some id →
    id ∉ ended before

/-- The process is about to take a live message out of its pending list. -/
def PopsLive (env : Setting) {π : Type} (s : RedisSystem π) (m : Move π Call) : Prop :=
  ∃ p r tenant_id queue_name id next, m = .step p ∧ s.running p = some r ∧
    r.rest = .command (.lpop (pending_key env.ns tenant_id queue_name)) next ∧
    (s.shared.lists (pending_key env.ns tenant_id queue_name)).head? = some id ∧
    Live s.log tenant_id queue_name id

/-! ## Quiet scripts -/

/-- A script that delivers no message and ends none, as long as it pops empty
lists and reads messages that are pending. It may push `entry` once. -/
def Quiet (call : Call) : Option (String × String) → RedisM Outcome → Prop
  | _, .done a => ∀ t, deliveryOf (.returned t call a) = none
  | entry, .command c next =>
    match c, next with
    | .get_idx _, next => ∀ reply, Quiet call entry (next reply)
    | .set_idx _ _, next => Quiet call entry (next ())
    | .get_msg _, next =>
      ∀ reply, (∀ data, reply = some data → data.status = .pending) →
        Quiet call entry (next reply)
    | .set_msg _ data, next => data.status = .pending ∧ Quiet call entry (next ())
    | .llen _, next => ∀ reply, Quiet call entry (next reply)
    | .lpop _, next => Quiet call entry (next none)
    | .rpush key id, next => entry = some (key, id) ∧ Quiet call none (next ())
    | .track _, next => Quiet call entry (next ())
    | .utcnow, next => ∀ reply, Quiet call entry (next reply)
    | _, _ => False

theorem quiet_track_keys {call : Call} {entry : Option (String × String)} (keys : List String)
    {rest : Unit → RedisM Outcome} (h : Quiet call entry (rest ())) :
    Quiet call entry (track_keys keys >>= rest) := by
  induction keys with
  | nil => exact h
  | cons key keys ih => exact ih

theorem enqueue.quiet (env : Setting) (t : Nat) (tenant_id queue_name : String) (payload : PyDict)
    (available_at : Option Int) :
    Quiet (.enqueue tenant_id queue_name payload available_at)
      (some (pending_key env.ns tenant_id queue_name, env.message_id t))
      (enqueue env.ns (env.uuid4.hex12 t) tenant_id queue_name payload available_at) := by
  unfold enqueue
  cases (PyDict.getD payload "attempt" (.int 0)).toInt with
  | error e => exact fun _ => rfl
  | ok attempt =>
    cases available_at with
    | some due => exact ⟨rfl, rfl, quiet_track_keys _ (fun _ => rfl)⟩
    | none =>
      intro due
      exact ⟨rfl, rfl, quiet_track_keys _ (fun _ => rfl)⟩

theorem dequeue.quiet (ns tenant_id queue_name : String) :
    Quiet (.dequeue tenant_id queue_name) none (dequeue ns tenant_id queue_name) := by
  intro pending_count
  cases pending_count with
  | zero => exact fun _ => rfl
  | succ left => exact fun _ => rfl

theorem quiet_load_idx {call : Call} {entry : Option (String × String)} (message_id : String)
    {rest : Option Idx → RedisM Outcome} (h : ∀ idx, Quiet call entry (rest idx)) :
    Quiet call entry (load_idx message_id >>= rest) := by
  intro reply
  cases reply with
  | none => exact h none
  | some idx =>
    have hreads : Quiet call entry
        ((if idx.tenant_id = "" ∨ idx.queue_name = "" then pure none else pure (some idx)) >>=
          rest) := by
      split
      · exact h none
      · exact h (some idx)
    exact hreads

/-- No message in flight is found, so the call ends with its reads. -/
theorem with_inflight.quiet {call : Call} (hcall : ∀ a t, deliveryOf (.returned t call a) = none)
    (tenant_id message_id : String) (rest : Idx → MsgData → RedisM Outcome) :
    Quiet call none (with_inflight tenant_id message_id rest) := by
  apply quiet_load_idx
  intro idx
  cases idx with
  | none => exact hcall _
  | some idx =>
    dsimp only
    split
    · exact hcall _
    · intro reply hpending
      cases reply with
      | none => exact hcall _
      | some data =>
        have hreads : Quiet call none
            (if data.status ≠ .inflight then pure (.ok none) else rest idx data) := by
          rw [hpending data rfl]
          exact hcall _
        exact hreads

/-- The entry that an enqueue pushes. -/
structure OwnEntry (env : Setting) (t : Nat) (call : Call) (entry : String × String) : Prop where
  id_eq : entry.2 = env.message_id t
  key_eq : ∃ tenant_id queue_name payload available_at,
    call = .enqueue tenant_id queue_name payload available_at ∧
      entry.1 = pending_key env.ns tenant_id queue_name

theorem code.quiet (env : Setting) (t : Nat) (call : Call) :
    ∃ entry, Quiet call entry (code env t call) ∧
      ∀ e, entry = some e → OwnEntry env t call e := by
  cases call with
  | enqueue tenant_id queue_name payload available_at =>
    refine ⟨_, enqueue.quiet env t tenant_id queue_name payload available_at, ?_⟩
    intro e hentry
    obtain rfl := Option.some.inj hentry
    exact ⟨rfl, _, _, _, _, rfl, rfl⟩
  | dequeue tenant_id queue_name =>
    exact ⟨none, dequeue.quiet env.ns tenant_id queue_name, by simp⟩
  | ack tenant_id message_id =>
    exact ⟨none, with_inflight.quiet (fun _ _ => rfl) tenant_id message_id _, by simp⟩
  | nack tenant_id message_id requeue delay_ms =>
    exact ⟨none, with_inflight.quiet (fun _ _ => rfl) tenant_id message_id _, by simp⟩

/-! ## Quiet states -/

/-- The pushes of the enqueues, oldest first. -/
def pushes (env : Setting) (log : List RedisEvent) : List (String × String) :=
  (enqueued log).map fun (tenant_id, queue_name, id) =>
    (pending_key env.ns tenant_id queue_name, id)

/-- Every message that was pushed still stands in its list. No message has
been delivered, and none has ended. -/
structure Waiting (env : Setting) {π : Type} (s : RedisSystem π) : Prop where
  lists : ∀ key, s.shared.lists key = ((pushes env s.log).filter (·.1 = key)).map Prod.snd
  sets : ∀ key, s.shared.sets key = ∅
  pending : ∀ id data, s.shared.msgs id = some data → data.status = .pending
  none_ended : ended s.log = []
  none_delivered : ∀ e ∈ s.log, deliveryOf e = none
  drawn : ∀ id ∈ (pushes env s.log).map Prod.snd, ∃ t, t < s.tickets ∧ id = env.message_id t
  nodup : ((pushes env s.log).map Prod.snd).Nodup
  scripts : ∀ p r, s.running p = some r → ∃ entry, Quiet r.call entry r.rest ∧
    ∀ e, entry = some e →
      OwnEntry env r.ticket r.call e ∧ e.2 ∉ (pushes env s.log).map Prod.snd

theorem message_id_inj (env : Setting) {t t' : Nat} (h : env.message_id t = env.message_id t') :
    t = t' := env.uuid4.distinct (String.append_right_inj _ |>.1 h)

theorem enqueued_snoc (log : List RedisEvent) (e : RedisEvent) :
    enqueued (log ++ [e]) = enqueued log ++ (enqueueOf e).toList := by
  unfold enqueued
  rw [List.filterMap_append]
  cases h : enqueueOf e <;> simp [h]

theorem ended_snoc (log : List RedisEvent) (e : RedisEvent) :
    ended (log ++ [e]) = ended log ++ (endOf e).toList := by
  unfold ended
  rw [List.filterMap_append]
  cases h : endOf e <;> simp [h]

/-- No message is enqueued, delivered or ended. -/
def Silent (e : RedisEvent) : Prop := enqueueOf e = none ∧ endOf e = none ∧ deliveryOf e = none

theorem ran_silent {t : Nat} {call : Call} {c : Command} (hrpush : ∀ key id, c ≠ .rpush key id)
    (hsrem : ∀ key id, c ≠ .srem key id) : Silent (.ran t call c) := by
  refine ⟨?_, ?_, rfl⟩
  · cases c with
    | rpush key id => exact absurd rfl (hrpush key id)
    | _ => cases call <;> rfl
  · cases c with
    | srem key id => exact absurd rfl (hsrem key id)
    | _ => cases call <;> simp [endOf]

section

variable {env : Setting} {π : Type} {s : RedisSystem π}

theorem mem_pushes {log : List RedisEvent} {key id : String} :
    (key, id) ∈ pushes env log ↔ ∃ tenant_id queue_name,
      (tenant_id, queue_name, id) ∈ enqueued log ∧
        key = pending_key env.ns tenant_id queue_name := by
  unfold pushes
  rw [List.mem_map]
  constructor
  · rintro ⟨⟨tenant_id, queue_name, id'⟩, hmem, heq⟩
    obtain ⟨rfl, rfl⟩ := Prod.mk.inj heq
    exact ⟨tenant_id, queue_name, hmem, rfl⟩
  · rintro ⟨tenant_id, queue_name, hmem, rfl⟩
    exact ⟨_, hmem, rfl⟩

theorem Waiting.safe (h : Waiting env s) : Safe env s where
  found := by
    intro tenant_id queue_name id hlive
    have hpush : (pending_key env.ns tenant_id queue_name, id) ∈ pushes env s.log :=
      mem_pushes.2 ⟨tenant_id, queue_name, hlive.1, rfl⟩
    left
    rw [h.lists]
    exact List.mem_map.2 ⟨_, List.mem_filter.2 ⟨hpush, by simp⟩, rfl⟩
  not_again := by
    intro before after e id hlog hdelivery
    have hnone := h.none_delivered e (by simp [hlog])
    rw [hnone] at hdelivery
    cases hdelivery

/-- A message that a process can pop is live. -/
theorem Waiting.live_of_head (h : Waiting env s) {key id : String}
    (hhead : (s.shared.lists key).head? = some id) :
    ∃ tenant_id queue_name, key = pending_key env.ns tenant_id queue_name ∧
      Live s.log tenant_id queue_name id := by
  have hmem := List.mem_of_head? hhead
  rw [h.lists] at hmem
  obtain ⟨⟨key', id'⟩, hfiltered, rfl⟩ := List.mem_map.1 hmem
  obtain ⟨hpush, hkey⟩ := List.mem_filter.1 hfiltered
  obtain rfl : key' = key := by simpa using hkey
  obtain ⟨tenant_id, queue_name, henqueued, rfl⟩ := mem_pushes.1 hpush
  exact ⟨tenant_id, queue_name, rfl, henqueued, by simp [h.none_ended]⟩

theorem Waiting.start : Waiting env (System.start empty : RedisSystem π) where
  lists := fun _ => rfl
  sets := fun _ => rfl
  pending := by
    intro id data hdata
    cases hdata
  none_ended := rfl
  none_delivered := by
    intro e he
    cases he
  drawn := by
    intro id hid
    cases hid
  nodup := List.nodup_nil
  scripts := by
    intro p r hr
    cases hr

variable [DecidableEq π]

theorem Waiting.called (h : Waiting env s) (p : π) (call : Call) :
    Waiting env { s with
      running := Function.update s.running p (some ⟨s.tickets, call, code env s.tickets call⟩)
      tickets := s.tickets + 1 } := by
  refine ⟨h.lists, h.sets, h.pending, h.none_ended, h.none_delivered, ?_, h.nodup, ?_⟩
  · intro id hid
    obtain ⟨t, hlt, heq⟩ := h.drawn id hid
    exact ⟨t, Nat.lt_succ_of_lt hlt, heq⟩
  · intro q r hr
    by_cases hq : q = p
    · subst hq
      simp only [Function.update_self, Option.some.injEq] at hr
      subst hr
      obtain ⟨entry, hquiet, hown⟩ := code.quiet env s.tickets call
      refine ⟨entry, hquiet, ?_⟩
      intro e he
      refine ⟨hown e he, ?_⟩
      -- the ticket is new, so its id was not drawn before
      intro hmem
      obtain ⟨t, hlt, hid⟩ := h.drawn _ hmem
      rw [(hown e he).id_eq] at hid
      have := message_id_inj env hid
      omega
    · simp only [Function.update_of_ne hq] at hr
      exact h.scripts q r hr

/-- A step that pushes nothing and leaves lists and sets as they are. -/
theorem Waiting.steps (h : Waiting env s) (p : π) {shared : Redis} {e : RedisEvent}
    {next : Option (Running Command Reply Call Outcome)} (hlists : shared.lists = s.shared.lists)
    (hsets : shared.sets = s.shared.sets)
    (hpending : ∀ id data, shared.msgs id = some data → data.status = .pending)
    (hsilent : Silent e)
    (hnext : ∀ r, next = some r → ∃ entry, Quiet r.call entry r.rest ∧ ∀ e, entry = some e →
      OwnEntry env r.ticket r.call e ∧ e.2 ∉ (pushes env s.log).map Prod.snd) :
    Waiting env { s with
      shared := shared
      running := Function.update s.running p next
      log := s.log ++ [e] } := by
  obtain ⟨henqueue, hend, hdelivery⟩ := hsilent
  have hsame : pushes env (s.log ++ [e]) = pushes env s.log := by
    simp [pushes, enqueued_snoc, henqueue]
  constructor
  · simpa only [hlists, hsame] using h.lists
  · simpa only [hsets] using h.sets
  · exact hpending
  · simpa [ended_snoc, hend] using h.none_ended
  · intro e' he'
    obtain hold | hnew := List.mem_append.1 he'
    · exact h.none_delivered e' hold
    · obtain rfl := List.mem_singleton.1 hnew
      exact hdelivery
  · simpa only [hsame] using h.drawn
  · simpa only [hsame] using h.nodup
  · intro q r hr
    simp only [hsame]
    by_cases hq : q = p
    · subst hq
      simp only [Function.update_self] at hr
      exact hnext r hr
    · simp only [Function.update_of_ne hq] at hr
      exact h.scripts q r hr

/-- The push of an enqueue. -/
theorem Waiting.pushed (h : Waiting env s) (htickets : Ticketed s) (p : π)
    {r : Running Command Reply Call Outcome} {entry : String × String} {rest : RedisM Outcome}
    (hp : s.running p = some r) (hown : OwnEntry env r.ticket r.call entry)
    (habsent : entry.2 ∉ (pushes env s.log).map Prod.snd) (hquiet : Quiet r.call none rest) :
    Waiting env { s with
      shared := (exec env.clock (.rpush entry.1 entry.2) s.shared).1
      running := Function.update s.running p (some { r with rest := rest })
      log := s.log ++ [.ran r.ticket r.call (.rpush entry.1 entry.2)] } := by
  obtain ⟨tenant_id, queue_name, payload, available_at, hcall, hkey⟩ := hown.key_eq
  have hpushes : pushes env (s.log ++ [.ran r.ticket r.call (.rpush entry.1 entry.2)]) =
      pushes env s.log ++ [entry] := by
    simp [pushes, enqueued_snoc, hcall, enqueueOf, ← hkey]
  constructor
  · intro key
    simp only [exec, hpushes, List.filter_append, List.map_append]
    by_cases hsame : key = entry.1
    · subst hsame
      simp [h.lists]
    · simp [Function.update_of_ne hsame, h.lists, Ne.symm hsame]
  · exact h.sets
  · exact h.pending
  · simpa [ended_snoc, hcall, endOf] using h.none_ended
  · intro e' he'
    obtain hold | hnew := List.mem_append.1 he'
    · exact h.none_delivered e' hold
    · obtain rfl := List.mem_singleton.1 hnew
      rfl
  · intro id hid
    rw [hpushes, List.map_append] at hid
    obtain hold | hnew := List.mem_append.1 hid
    · exact h.drawn id hold
    · obtain rfl : id = entry.2 := by simpa using hnew
      exact ⟨r.ticket, htickets.below p r hp, hown.id_eq⟩
  · rw [hpushes, List.map_append, List.nodup_append]
    refine ⟨h.nodup, by simp, ?_⟩
    intro id hid id' hid'
    obtain rfl : id' = entry.2 := by simpa using hid'
    intro heq
    exact habsent (heq ▸ hid)
  · intro q r' hr'
    by_cases hq : q = p
    · subst hq
      simp only [Function.update_self, Option.some.injEq] at hr'
      subst hr'
      exact ⟨none, hquiet, by simp⟩
    · simp only [Function.update_of_ne hq] at hr'
      obtain ⟨other, hother, howns⟩ := h.scripts q r' hr'
      refine ⟨other, hother, ?_⟩
      intro e he
      refine ⟨(howns e he).1, ?_⟩
      rw [hpushes, List.map_append, List.mem_append, not_or]
      refine ⟨(howns e he).2, ?_⟩
      -- two calls have two tickets, so they draw two ids
      intro hmem
      have hids : e.2 = entry.2 := by simpa using hmem
      rw [(howns e he).1.id_eq, hown.id_eq] at hids
      exact hq (htickets.apart q p r' r hr' hp (message_id_inj env hids))

/-- A move keeps the messages waiting, unless it pops a live one. -/
theorem Waiting.move (h : Waiting env s) (htickets : Ticketed s) (m : Move π Call)
    (hgood : ¬ PopsLive env s m) : Waiting env (move env s m) := by
  refine System.move_cases h ?_ ?_ ?_ ?_
  · intro p call _ _
    exact h.called p call
  · intro p r a _ hp hrest
    obtain ⟨entry, hquiet, -⟩ := h.scripts p r hp
    rw [hrest] at hquiet
    exact h.steps p rfl rfl h.pending ⟨rfl, rfl, hquiet r.ticket⟩ (by simp)
  · intro p r c next hm hp hrest
    obtain ⟨entry, hquiet, hown⟩ := h.scripts p r hp
    rw [hrest] at hquiet
    have hnext : ∀ rest, Quiet r.call entry rest → ∀ r', some { r with rest := rest } = some r' →
        ∃ entry, Quiet r'.call entry r'.rest ∧ ∀ e, entry = some e →
          OwnEntry env r'.ticket r'.call e ∧ e.2 ∉ (pushes env s.log).map Prod.snd := by
      intro rest hrest r' hr'
      obtain rfl := Option.some.inj hr'
      exact ⟨entry, hrest, hown⟩
    cases c with
    | get_idx id =>
      exact h.steps p rfl rfl h.pending (ran_silent (by simp) (by simp)) (hnext _ (hquiet _))
    | set_idx id data =>
      exact h.steps p rfl rfl h.pending (ran_silent (by simp) (by simp)) (hnext _ hquiet)
    | get_msg id =>
      exact h.steps p rfl rfl h.pending (ran_silent (by simp) (by simp))
        (hnext _ (hquiet _ (h.pending id)))
    | set_msg id data =>
      refine h.steps p rfl rfl ?_ (ran_silent (by simp) (by simp)) (hnext _ hquiet.2)
      intro id' data' hdata
      by_cases hid : id' = id
      · subst hid
        simp only [exec, Function.update_self, Option.some.injEq] at hdata
        exact hdata ▸ hquiet.1
      · simp only [exec, Function.update_of_ne hid] at hdata
        exact h.pending id' data' hdata
    | llen key =>
      exact h.steps p rfl rfl h.pending (ran_silent (by simp) (by simp)) (hnext _ (hquiet _))
    | lpop key =>
      have hempty : s.shared.lists key = [] := by
        cases hhead : (s.shared.lists key).head? with
        | none => exact List.head?_eq_none_iff.1 hhead
        | some id =>
          obtain ⟨tenant_id, queue_name, rfl, hlive⟩ := h.live_of_head hhead
          exact absurd ⟨p, r, tenant_id, queue_name, id, next, hm, hp, hrest, hhead, hlive⟩ hgood
      have hreply : (exec env.clock (.lpop key) s.shared).2 = none := by simp [exec, hempty]
      refine h.steps p ?_ rfl h.pending (ran_silent (by simp) (by simp)) (hnext _ ?_)
      · simp only [exec, hempty, List.tail_nil]
        rw [← hempty, Function.update_eq_self]
      · rw [hreply]
        exact hquiet
    | rpush key id =>
      obtain ⟨rfl, hrest'⟩ := hquiet
      obtain ⟨hentry, habsent⟩ := hown _ rfl
      exact h.pushed htickets p hp hentry habsent hrest'
    | track key =>
      exact h.steps p rfl rfl h.pending (ran_silent (by simp) (by simp)) (hnext _ hquiet)
    | utcnow =>
      exact h.steps p rfl rfl h.pending (ran_silent (by simp) (by simp)) (hnext _ (hquiet _))
    | del_idx id => exact False.elim hquiet
    | del_msg id => exact False.elim hquiet
    | lpush key id => exact False.elim hquiet
    | sadd key id => exact False.elim hquiet
    | srem key id => exact False.elim hquiet
  · intro p _
    refine ⟨h.lists, h.sets, h.pending, h.none_ended, h.none_delivered, h.drawn, h.nodup, ?_⟩
    intro q r hr
    by_cases hq : q = p
    · subst hq
      simp at hr
    · simp only [Function.update_of_ne hq] at hr
      exact h.scripts q r hr

/-- A message that was popped is in neither place. -/
theorem Waiting.lost (h : Waiting env s) (m : Move π Call) (hpops : PopsLive env s m) :
    ¬ Safe env (redis_queue.move env s m) := by
  obtain ⟨p, r, tenant_id, queue_name, id, next, rfl, hp, hrest, hhead, hlive⟩ := hpops
  intro hsafe
  obtain ⟨tail, hlist⟩ := List.head?_eq_some_iff.1 hhead
  have hnodup : (id :: tail).Nodup := by
    rw [← hlist, h.lists]
    exact h.nodup.sublist (List.filter_sublist.map _)
  have hmoved : redis_queue.move env s (.step p) = { s with
      shared := (exec env.clock (.lpop (pending_key env.ns tenant_id queue_name)) s.shared).1
      running := Function.update s.running p (some { r with rest := next (some id) })
      log := s.log ++ [.ran r.ticket r.call
        (.lpop (pending_key env.ns tenant_id queue_name))] } := by
    simp only [redis_queue.move, System.move, hp, System.goOn, hrest, exec, hhead]
  rw [hmoved] at hsafe
  have hstays : Live (s.log ++ [.ran r.ticket r.call
      (.lpop (pending_key env.ns tenant_id queue_name))]) tenant_id queue_name id := by
    refine ⟨?_, ?_⟩
    · rw [enqueued_snoc]
      exact List.mem_append_left _ hlive.1
    · rw [ended_snoc]
      simp [h.none_ended, endOf]
  obtain hlist' | hset := hsafe.found _ _ _ hstays
  · simp only [exec, Function.update_self, hlist, List.tail_cons] at hlist'
    exact (List.nodup_cons.1 hnodup).1 hlist'
  · simp [exec, h.sets] at hset

end

/-! ## The laws -/

/-- In a run of any processes, every state is safe exactly when no process
ever takes a live message out of a pending list. -/
theorem safe_while_no_live_pop {π : Type} [DecidableEq π] (env : Setting)
    (moves : List (Move π Call)) :
    (∀ done, done <+: moves → Safe env (after env done)) ↔
      ∀ done m, done ++ [m] <+: moves → ¬ PopsLive env (after env done) m := by
  have hsafe : ∀ s : RedisSystem π, Ticketed s ∧ Waiting env s → Safe env s := fun s h => h.2.safe
  have hkeeps : ∀ (s : RedisSystem π) m, Ticketed s ∧ Waiting env s → ¬ PopsLive env s m →
      Ticketed (move env s m) ∧ Waiting env (move env s m) :=
    fun s m h hgood => ⟨h.1.move m, h.2.move h.1 m hgood⟩
  have hlost : ∀ (s : RedisSystem π) m, Ticketed s ∧ Waiting env s → PopsLive env s m →
      ¬ Safe env (move env s m) := fun s m h hpops => h.2.lost m hpops
  exact safe_run_iff hsafe hkeeps hlost ⟨Ticketed.start empty, Waiting.start⟩ moves

/-! Two runs of the processes `false` and `true` on one message. -/

def plain_setting : Setting := ⟨"bea", Uuid4.unary, fun _ => 0⟩

def steps (p : Bool) (n : Nat) : List (Move Bool Call) := List.replicate n (.step p)

/-- A process stops in the middle of its dequeue. -/
def stopped_dequeue : List (Move Bool Call) :=
  .call false (.enqueue "t" "q" [] none) :: steps false 9 ++
    .call true (.dequeue "t" "q") :: steps true 2 ++ [.crash true]

/-- While one process acks, the other one has read the same message and puts
it back. -/
def ack_beside_nack : List (Move Bool Call) :=
  .call false (.enqueue "t" "q" [] none) :: steps false 9 ++
    .call false (.dequeue "t" "q") :: steps false 9 ++
    .call true (.nack "t" "msg_" true 0) :: steps true 2 ++
    .call false (.ack "t" "msg_") :: steps false 6 ++ steps true 5 ++
    .call true (.dequeue "t" "q") :: steps true 9

theorem message_lost_and_message_delivered_again :
    ¬ Safe plain_setting (after plain_setting stopped_dequeue) ∧
      ¬ Safe plain_setting (after plain_setting ack_beside_nack) := by
  constructor
  · intro hsafe
    have hlive : Live (after plain_setting stopped_dequeue).log "t" "q" "msg_" := by
      unfold Live
      decide +kernel
    have hlists : (after plain_setting stopped_dequeue).shared.lists
        (pending_key "bea" "t" "q") = [] := by decide +kernel
    have hsets : (after plain_setting stopped_dequeue).shared.sets
        (inflight_key "bea" "t" "q") = ∅ := by decide +kernel
    obtain hlist | hset := hsafe.found "t" "q" "msg_" hlive
    · exact absurd (hlists ▸ hlist) (by simp)
    · exact absurd (hsets ▸ hset) (by simp)
  · intro hsafe
    have hlast : (after plain_setting ack_beside_nack).log.getLast?.bind deliveryOf =
        some "msg_" := by decide +kernel
    have hended : "msg_" ∈ ended (after plain_setting ack_beside_nack).log.dropLast := by
      decide +kernel
    obtain ⟨e, he, hdelivery⟩ := Option.bind_eq_some_iff.1 hlast
    obtain ⟨before, hlog⟩ := List.getLast?_eq_some_iff.1 he
    rw [hlog, List.dropLast_concat] at hended
    exact hsafe.not_again before [] e "msg_" hlog hdelivery hended

end bid_evaluation.redis_queue
