-- The life of a dead letter item: it is seeded open, and a requeue or a
-- discard ends it. A requeue looks at the status first, a discard does not.
import BidEvaluation.Endings
import BidEvaluation.Lib.Lockstep

open dict_lib stepwise lockstep bid_evaluation.values bid_evaluation.core bid_evaluation.store_ops
  bid_evaluation.operations bid_evaluation.job_steps bid_evaluation.job_laws
  bid_evaluation.endings

namespace bid_evaluation.item_laws

variable {env : Env} {w w' : World}

/-! ## What each operation does -/

theorem append_audit_log.adds (env : Env) (tenant_id action : String) (details : PyDict)
    (w : World) :
    Meets AnyStep (append_audit_log env tenant_id action details) w (fun r t => r = .ok () ∧
      ∃ log : AuditLog, log.tenant_id = tenant_id ∧ log.action = action ∧ log.details = details ∧
        t.store = { w.store with audit_logs := w.store.audit_logs ++ [log] }) := by
  simp only [append_audit_log, uuid4_hex12, utcnow, draw, update, meets_bind, meets_read,
    meets_write, then_ok, meets_pure, any_step, true_and]
  exact ⟨_, rfl, rfl, rfl, rfl⟩

def seeded_item (env : Env) (w : World) (job_id error_class error_code tenant_id : String) :
    DlqItem :=
  ⟨"dlq_" ++ env.uuid4.hex12 w.draws, job_id, tenant_id, error_class, error_code, "open", none, none,
    none⟩

theorem seed_dlq_item.puts (env : Env) (job_id error_class error_code tenant_id : String)
    (w : World) :
    Meets AnyStep (seed_dlq_item env job_id error_class error_code tenant_id) w (fun r t =>
      r = .ok (seeded_item env w job_id error_class error_code tenant_id) ∧
      t.store = { w.store with
        dlq_items := w.store.dlq_items.put
          (seeded_item env w job_id error_class error_code tenant_id) }) := by
  refine saved.spec ?_ fun _ t t' h hstore _ => ⟨h.1, hstore.trans h.2⟩
  simp only [uuid4_hex12, draw, persist_dlq_item, update, meets_bind, meets_read, meets_write,
    then_ok, meets_pure, any_step, true_and]
  exact ⟨rfl, rfl⟩

/-- The job that a requeue makes. -/
def requeue_job (env : Env) (w : World) (item : DlqItem) (dlq_id trace_id tenant_id : String) :
    Job where
  job_id := "job_" ++ env.uuid4.hex12 w.draws
  job_type := .requeue
  status := .queued
  retry_count := 0
  thread_id := "thr_" ++ "requeue" ++ "_" ++ env.hex10 (w.draws + 1)
  tenant_id := tenant_id
  trace_id := trace_id
  resource_type := "job"
  resource_id := item.job_id
  payload := .requeue dlq_id
  last_error := none
  errors := []
  error_code := none
  next_retry_at := none

/-- A requeue is refused and changes nothing, or it makes a job of an item
that was open. -/
inductive RequeueEnds (env : Env) (w : World) (dlq_id trace_id tenant_id : String) :
    Except PyErr String → World → Prop where
  | refused (e : PyErr) : RequeueEnds env w dlq_id trace_id tenant_id (.error e) w
  | requeued {item : DlqItem} {t : World} (hitem : get_dlq_item w.store dlq_id tenant_id = some item)
      (hopen : item.status = "open")
      (hjobs : t.store.jobs = w.store.jobs.put (requeue_job env w item dlq_id trace_id tenant_id))
      (hitems : t.store.dlq_items = w.store.dlq_items.put { item with status := "requeued" })
      (hlogs : w.store.audit_logs <+: t.store.audit_logs) :
      RequeueEnds env w dlq_id trace_id tenant_id
        (.ok (requeue_job env w item dlq_id trace_id tenant_id).job_id) t

theorem requeue_dlq_item.ends (env : Env) (dlq_id trace_id tenant_id : String) (w : World) :
    Meets AnyStep (requeue_dlq_item env dlq_id trace_id tenant_id) w
      (RequeueEnds env w dlq_id trace_id tenant_id) := by
  unfold requeue_dlq_item
  refine saved.spec ?_ ?_
  · rw [meets_bind, meets_read, then_ok]
    split
    · unfold dlq_item_not_found raise_api
      rw [meets_raise]
      exact .refused _
    · rename_i item hitem
      rw [meets_ite]
      refine ⟨fun _ => ?_, fun hopen => ?_⟩
      · unfold raise_api
        rw [meets_raise]
        exact .refused _
      · simp only [uuid4_hex12, new_thread_id, draw, persist_job, persist_dlq_item, update,
          meets_bind, meets_read, meets_write, then_ok, meets_pure, any_step, true_and]
        refine (append_audit_log.adds env _ _ _ _).post ?_
        rintro r t ⟨rfl, log, -, -, -, hstore⟩
        rw [then_ok, meets_pure]
        refine .requeued hitem (not_not.1 hopen) ?_ ?_ ?_
        · rw [hstore]
          rfl
        · rw [hstore]
        · rw [hstore]
          exact List.prefix_append _ _
  · intro job_id t t' h hstore _
    cases h with
    | requeued hitem hopen hjobs hitems hlogs =>
      exact .requeued hitem hopen (hstore ▸ hjobs) (hstore ▸ hitems) (hstore ▸ hlogs)

/-- A reason and two reviewers, who are not the same. -/
structure Approved (reason reviewer_id reviewer_id_2 : String) : Prop where
  reason : strip reason ≠ ""
  first : strip reviewer_id ≠ ""
  second : strip reviewer_id_2 ≠ ""
  different : strip reviewer_id ≠ strip reviewer_id_2

def discarded_item (item : DlqItem) (reason reviewer_id reviewer_id_2 : String) : DlqItem :=
  { item with
    status := "discarded"
    discard_reason := some reason
    reviewer_id := some (strip reviewer_id)
    reviewer_id_2 := some (strip reviewer_id_2) }

/-- The entry of the audit log that a discard adds. -/
structure DiscardLogged (log : AuditLog) (tenant_id dlq_id reviewer_a reviewer_b : String) :
    Prop where
  tenant_id : log.tenant_id = tenant_id
  action : log.action = "dlq_discard_submitted"
  dlq_id : log.details.get "dlq_id" = .str dlq_id
  reviewer_id : log.details.get "reviewer_id" = .str reviewer_a
  reviewer_id_2 : log.details.get "reviewer_id_2" = .str reviewer_b
  approval_reviewers : log.details.get "approval_reviewers" = .list [.str reviewer_a, .str reviewer_b]

/-- A discard is refused and changes nothing, or it was approved. The status
of the item does not count. -/
inductive DiscardEnds (w : World) (dlq_id reason reviewer_id reviewer_id_2 tenant_id : String) :
    Except PyErr Unit → World → Prop where
  | refused (e : PyErr)
      (hno : ¬ ((get_dlq_item w.store dlq_id tenant_id).isSome = true ∧
        Approved reason reviewer_id reviewer_id_2)) :
      DiscardEnds w dlq_id reason reviewer_id reviewer_id_2 tenant_id (.error e) w
  | discarded {item : DlqItem} {log : AuditLog} {t : World}
      (hitem : get_dlq_item w.store dlq_id tenant_id = some item)
      (happroved : Approved reason reviewer_id reviewer_id_2)
      (hitems : t.store.dlq_items =
        w.store.dlq_items.put (discarded_item item reason reviewer_id reviewer_id_2))
      (hjobs : t.store.jobs = w.store.jobs)
      (hlogs : t.store.audit_logs = w.store.audit_logs ++ [log])
      (hlog : DiscardLogged log tenant_id dlq_id (strip reviewer_id) (strip reviewer_id_2)) :
      DiscardEnds w dlq_id reason reviewer_id reviewer_id_2 tenant_id (.ok ()) t

theorem discard_dlq_item.ends (env : Env)
    (dlq_id reason reviewer_id reviewer_id_2 tenant_id trace_id : String) (w : World) :
    Meets AnyStep
      (discard_dlq_item env dlq_id reason reviewer_id reviewer_id_2 tenant_id trace_id) w
      (DiscardEnds w dlq_id reason reviewer_id reviewer_id_2 tenant_id) := by
  unfold discard_dlq_item
  refine saved.spec ?_ ?_
  · rw [meets_bind, meets_read, then_ok]
    split
    · rename_i hnone
      unfold dlq_item_not_found raise_api
      rw [meets_raise]
      exact .refused _ fun h => by simp [hnone] at h
    · rename_i item hitem
      simp only [approval_required, raise_api, meets_ite, meets_raise]
      refine ⟨fun hblank => ?_, fun hgiven => ⟨fun hsame => ?_, fun hdifferent => ?_⟩⟩
      · refine .refused _ fun h => ?_
        rcases hblank with hblank | hblank | hblank
        · exact h.2.reason hblank
        · exact h.2.first hblank
        · exact h.2.second hblank
      · exact .refused _ fun h => h.2.different hsame
      · simp only [not_or] at hgiven
        simp only [persist_dlq_item, update, meets_bind, meets_write, then_ok, meets_pure, any_step,
          true_and]
        refine (append_audit_log.adds env _ _ _ _).post ?_
        rintro r t ⟨rfl, log, htenant, haction, hdetails, hstore⟩
        refine .discarded hitem ⟨hgiven.1, hgiven.2.1, hgiven.2.2, hdifferent⟩ (hstore ▸ rfl)
          (hstore ▸ rfl) (hstore ▸ rfl) ⟨htenant, haction, ?_, ?_, ?_, ?_⟩
        all_goals rw [hdetails]
        all_goals rfl
  · intro u t t' h hstore _
    cases h with
    | discarded hitem happroved hitems hjobs hlogs hlog =>
      exact .discarded hitem happroved (hstore ▸ hitems) (hstore ▸ hjobs) (hstore ▸ hlogs) hlog

/-! ## Calls on the dead letter queue -/

inductive Call where
  | seed (job_id error_class error_code tenant_id : String)
  | requeue (dlq_id trace_id tenant_id : String)
  | discard (dlq_id reason reviewer_id reviewer_id_2 tenant_id trace_id : String)

def Call.op : Call → Op
  | .seed job_id error_class error_code tenant_id =>
    .seed_dlq_item job_id error_class error_code tenant_id
  | .requeue dlq_id trace_id tenant_id => .requeue_dlq_item dlq_id trace_id tenant_id
  | .discard dlq_id reason reviewer_id reviewer_id_2 tenant_id trace_id =>
    .discard_dlq_item dlq_id reason reviewer_id reviewer_id_2 tenant_id trace_id

/-- The service, when only these calls are made. -/
def machine (env : Env) : Machine World Call (Except PyErr Unit) where
  start := World.start
  step w call := (perform env w call.op, (call.op.act env).result w)

theorem after_eq (env : Env) (calls : List Call) :
    (machine env).after calls = after env World.start (calls.map Call.op) := by
  unfold Machine.after after
  rw [List.foldl_map]
  rfl

theorem named_after (env : Env) (calls : List Call) : Named env ((machine env).after calls) := by
  rw [after_eq]
  exact named_reached (reached_after env _)

/-- A discard that is approved is of no item that was requeued. -/
def Fine (w : World) : Call → Prop
  | .discard dlq_id reason reviewer_id reviewer_id_2 tenant_id _ =>
    Approved reason reviewer_id reviewer_id_2 →
      ∀ item, get_dlq_item w.store dlq_id tenant_id = some item → item.status ≠ "requeued"
  | _ => True

/-- What a call does to the items and to the jobs that were made of them. -/
inductive CallEnds (env : Env) (w : World) : Call → Except PyErr Unit → World → Prop where
  | refused (call : Call) (e : PyErr) (hfine : Fine w call) : CallEnds env w call (.error e) w
  | seeded {job_id error_class error_code tenant_id : String} {t : World}
      (hjobs : t.store.jobs = w.store.jobs)
      (hitems : t.store.dlq_items = w.store.dlq_items.put
        (seeded_item env w job_id error_class error_code tenant_id)) :
      CallEnds env w (.seed job_id error_class error_code tenant_id) (.ok ()) t
  | requeued {dlq_id trace_id tenant_id : String} {item : DlqItem} {t : World}
      (hitem : get_dlq_item w.store dlq_id tenant_id = some item) (hopen : item.status = "open")
      (hjobs : t.store.jobs = w.store.jobs.put (requeue_job env w item dlq_id trace_id tenant_id))
      (hitems : t.store.dlq_items = w.store.dlq_items.put { item with status := "requeued" }) :
      CallEnds env w (.requeue dlq_id trace_id tenant_id) (.ok ()) t
  | discarded {dlq_id reason reviewer_id reviewer_id_2 tenant_id trace_id : String} {item : DlqItem}
      {t : World} (hitem : get_dlq_item w.store dlq_id tenant_id = some item)
      (happroved : Approved reason reviewer_id reviewer_id_2)
      (hjobs : t.store.jobs = w.store.jobs)
      (hitems : t.store.dlq_items =
        w.store.dlq_items.put (discarded_item item reason reviewer_id reviewer_id_2)) :
      CallEnds env w (.discard dlq_id reason reviewer_id reviewer_id_2 tenant_id trace_id) (.ok ()) t

theorem quiet_ends {α : Type} {m : Act α} {Q : Except PyErr Unit → World → Prop}
    (h : Meets AnyStep m w (fun r t => Q (r.map fun _ => ()) t)) : Meets AnyStep (quiet m) w Q := by
  refine h.bind (fun a t ha => ?_) (fun e t he => he)
  rw [meets_pure]
  exact ha

theorem call_ends (env : Env) (w : World) (call : Call) :
    CallEnds env w call ((machine env).step w call).2 ((machine env).step w call).1 := by
  have hspec : Meets AnyStep (call.op.act env) w (CallEnds env w call) := by
    cases call with
    | seed job_id error_class error_code tenant_id =>
      refine quiet_ends ((seed_dlq_item.puts env _ _ _ _ w).post ?_)
      rintro r t ⟨rfl, hstore⟩
      exact .seeded (hstore ▸ rfl) (hstore ▸ rfl)
    | requeue dlq_id trace_id tenant_id =>
      refine quiet_ends ((requeue_dlq_item.ends env _ _ _ w).post ?_)
      intro r t h
      cases h with
      | refused e => exact .refused _ e trivial
      | requeued hitem hopen hjobs hitems hlogs => exact .requeued hitem hopen hjobs hitems
    | discard dlq_id reason reviewer_id reviewer_id_2 tenant_id trace_id =>
      refine (discard_dlq_item.ends env _ _ _ _ _ _ w).post ?_
      intro r t h
      cases h with
      | refused e hno =>
        exact .refused _ e fun happroved item hitem => absurd ⟨by rw [hitem]; rfl, happroved⟩ hno
      | discarded hitem happroved hitems hjobs hlogs hlog =>
        exact .discarded hitem happroved hjobs hitems
  exact hspec.2

/-! ## The life of an item -/

/-- The status is as it was, or it has left "open" for one of the two ends. -/
def StatusStep (item item' : DlqItem) : Prop :=
  item'.status = item.status ∨
    item.status = "open" ∧ (item'.status = "requeued" ∨ item'.status = "discarded")

theorem StatusStep.refl (item : DlqItem) : StatusStep item item := .inl rfl

theorem StatusStep.trans {a b c : DlqItem} (h : StatusStep a b) (h' : StatusStep b c) :
    StatusStep a c := by
  have hends : ¬ "requeued" = "open" ∧ ¬ "discarded" = "open" := by decide
  rcases h with hsame | ⟨hopen, hend⟩
  · rcases h' with hsame' | ⟨hopen', hend'⟩
    · exact .inl (hsame'.trans hsame)
    · exact .inr ⟨hsame.symm.trans hopen', hend'⟩
  · rcases h' with hsame' | ⟨hopen', -⟩
    · exact .inr ⟨hopen, by rwa [hsame']⟩
    · rw [hopen'] at hend
      rcases hend with hend | hend
      · exact absurd hend.symm hends.1
      · exact absurd hend.symm hends.2

/-- Every item lives on, and its status has changed at most once. -/
def LivesOn (w w' : World) : Prop := ∀ id item, w.store.dlq_items.get? id = some item →
  ∃ item', w'.store.dlq_items.get? id = some item' ∧ StatusStep item item'

theorem LivesOn.refl (w : World) : LivesOn w w := fun _ item h => ⟨item, h, .refl item⟩

theorem LivesOn.trans {w'' : World} (h : LivesOn w w') (h' : LivesOn w' w'') : LivesOn w w'' := by
  intro id item hitem
  obtain ⟨item', hitem', hstep⟩ := h id item hitem
  obtain ⟨item'', hitem'', hstep'⟩ := h' id item' hitem'
  exact ⟨item'', hitem'', hstep.trans hstep'⟩

/-- At most one job was made of each item. -/
def OneJob (w : World) : Prop := ∀ dlq_id job job', job ∈ w.store.jobs.values →
  job' ∈ w.store.jobs.values → job.payload = .requeue dlq_id → job'.payload = .requeue dlq_id →
    job = job'

/-- The life of the items over a whole run. -/
structure LifeCycle (env : Env) (calls : List Call) : Prop where
  once : ∀ before more, before ++ more <+: calls →
    LivesOn ((machine env).after before) ((machine env).after (before ++ more))
  starts_open : ∀ before call id item, before ++ [call] <+: calls →
    ((machine env).after before).store.dlq_items.get? id = none →
    ((machine env).after (before ++ [call])).store.dlq_items.get? id = some item →
      item.status = "open"
  one_job : ∀ before, before <+: calls → OneJob ((machine env).after before)
  refused : ∀ before call e, before ++ [call] <+: calls → (machine env).answer before call = .error e →
    (machine env).after (before ++ [call]) = (machine env).after before

theorem found_item {dlq_id tenant_id : String} {item : DlqItem}
    (h : get_dlq_item w.store dlq_id tenant_id = some item) :
    w.store.dlq_items.get? dlq_id = some item ∧ item.dlq_id = dlq_id ∧ item.tenant_id = tenant_id := by
  unfold get_dlq_item at h
  obtain ⟨hfound, htenant⟩ := Option.filter_eq_some_iff.1 h
  exact ⟨hfound, w.store.dlq_items.key_of_get? hfound, of_decide_eq_true htenant⟩

/-- A put of an item that continues the one that was there. -/
theorem lives_on_put {item : DlqItem} (hitems : w'.store.dlq_items = w.store.dlq_items.put item)
    (hold : ∀ old, w.store.dlq_items.get? item.dlq_id = some old → StatusStep old item) :
    LivesOn w w' := by
  intro id old hget
  rw [hitems, Table.get?_put]
  split
  · rename_i heq
    subst heq
    exact ⟨item, rfl, hold old hget⟩
  · exact ⟨old, hget, .refl old⟩

theorem fresh_item (hn : Named env w) (job_id error_class error_code tenant_id : String) :
    w.store.dlq_items.get? (seeded_item env w job_id error_class error_code tenant_id).dlq_id =
      none := by
  by_contra hne
  obtain ⟨item, hitem⟩ := Option.ne_none_iff_exists'.1 hne
  exact undrawn (hn.dlq _ item hitem)

/-- What holds after every run: each status is one of three, and a job was
made only of an item that is not open any more. -/
structure Known (w : World) : Prop where
  status : ∀ id item, w.store.dlq_items.get? id = some item →
    item.status = "open" ∨ item.status = "requeued" ∨ item.status = "discarded"
  made : ∀ job ∈ w.store.jobs.values, ∀ dlq_id, job.payload = .requeue dlq_id →
    ∃ item, w.store.dlq_items.get? dlq_id = some item ∧ item.status ≠ "open"
  one_job : OneJob w

theorem known_start : Known World.start := by
  have hno : ∀ job : Job, job ∉ World.start.store.jobs.values := by
    intro job hjob
    simp [World.start, Store.empty, Table.mem_values_iff] at hjob
  exact ⟨fun id item h => by simp [World.start, Store.empty] at h,
    fun job hjob => absurd hjob (hno job), fun _ job _ hjob => absurd hjob (hno job)⟩

/-- A put of an item keeps all this, if a job that was made of the item
before still finds it closed. -/
theorem Known.put (h : Known w) {item : DlqItem} (hjobs : w'.store.jobs = w.store.jobs)
    (hitems : w'.store.dlq_items = w.store.dlq_items.put item)
    (hstatus : item.status = "open" ∨ item.status = "requeued" ∨ item.status = "discarded")
    (hclosed : ∀ old, w.store.dlq_items.get? item.dlq_id = some old → old.status ≠ "open" →
      item.status ≠ "open") : Known w' := by
  refine ⟨fun id found hfound => ?_, fun job hjob dlq_id hpayload => ?_, ?_⟩
  · rw [hitems, Table.get?_put] at hfound
    split at hfound
    · cases hfound
      exact hstatus
    · exact h.status id found hfound
  · rw [hjobs] at hjob
    obtain ⟨old, hold, hne⟩ := h.made job hjob dlq_id hpayload
    rw [hitems, Table.get?_put]
    split
    · rename_i heq
      subst heq
      exact ⟨item, rfl, hclosed old hold hne⟩
    · exact ⟨old, hold, hne⟩
  · unfold OneJob
    rw [hjobs]
    exact h.one_job

theorem Known.requeued (h : Known w) {dlq_id trace_id tenant_id : String}
    {item : DlqItem} (hitem : get_dlq_item w.store dlq_id tenant_id = some item)
    (hopen : item.status = "open")
    (hjobs : w'.store.jobs = w.store.jobs.put (requeue_job env w item dlq_id trace_id tenant_id))
    (hitems : w'.store.dlq_items = w.store.dlq_items.put { item with status := "requeued" }) :
    Known w' := by
  obtain ⟨hfound, hid, -⟩ := found_item hitem
  have hother : ¬ "requeued" = "open" := by decide
  have hbefore : ∀ job ∈ w.store.jobs.values, job.payload ≠ .requeue dlq_id := by
    intro job hjob hpayload
    obtain ⟨old, hold, hne⟩ := h.made job hjob dlq_id hpayload
    rw [hfound] at hold
    cases hold
    exact hne hopen
  have hvalues : ∀ job, job ∈ w'.store.jobs.values →
      job = requeue_job env w item dlq_id trace_id tenant_id ∨ job ∈ w.store.jobs.values := by
    intro job hjob
    rw [Table.mem_values_iff, hjobs, Table.get?_put] at hjob
    split at hjob
    · exact .inl (Option.some.inj hjob).symm
    · exact .inr ((Table.mem_values_iff _ _).2 hjob)
  refine ⟨fun id found hget => ?_, fun job hjob id hpayload => ?_, fun id job job' hjob hjob' hp hp' => ?_⟩
  · rw [hitems, Table.get?_put] at hget
    split at hget
    · cases hget
      exact .inr (.inl rfl)
    · exact h.status id found hget
  · rw [hitems, Table.get?_put]
    split
    · exact ⟨_, rfl, hother⟩
    · rename_i hne
      rcases hvalues job hjob with rfl | hold
      · cases hpayload
        exact absurd hid.symm hne
      · exact h.made job hold id hpayload
  · rcases hvalues job hjob with rfl | hold <;> rcases hvalues job' hjob' with rfl | hold'
    · rfl
    · cases hp
      exact absurd hp' (hbefore job' hold')
    · cases hp'
      exact absurd hp (hbefore job hold)
    · exact h.one_job id job job' hold hold' hp hp'

theorem Known.step (h : Known w) (hn : Named env w) (call : Call) :
    Known ((machine env).step w call).1 := by
  have hdiscarded : ¬ "discarded" = "open" := by decide
  have hends := call_ends env w call
  generalize ((machine env).step w call).1 = w' at hends ⊢
  generalize ((machine env).step w call).2 = r at hends
  cases hends with
  | refused call e hfine => exact h
  | seeded hjobs hitems =>
    refine h.put hjobs hitems (.inl rfl) fun old hold => ?_
    rw [fresh_item hn] at hold
    cases hold
  | requeued hitem hopen hjobs hitems => exact h.requeued hitem hopen hjobs hitems
  | discarded hitem happroved hjobs hitems =>
    exact h.put hjobs hitems (.inr (.inr rfl)) fun _ _ _ => hdiscarded

theorem known_after (env : Env) (calls : List Call) : Known ((machine env).after calls) := by
  induction calls using List.reverseRecOn with
  | nil => exact known_start
  | append_singleton calls call ih =>
    rw [Machine.after_concat]
    exact ih.step (named_after env calls) call

/-- One call keeps the items alive exactly if it is fine. -/
theorem lives_on_iff (h : Known w) (hn : Named env w) (call : Call) :
    LivesOn w ((machine env).step w call).1 ↔ Fine w call := by
  have hwords : ¬ "discarded" = "requeued" ∧ ¬ "requeued" = "open" := by decide
  have hends := call_ends env w call
  generalize ((machine env).step w call).1 = w' at hends ⊢
  generalize ((machine env).step w call).2 = r at hends
  cases hends with
  | refused call e hfine => exact iff_of_true (.refl w) hfine
  | seeded hjobs hitems =>
    refine iff_of_true (lives_on_put hitems fun old hold => ?_) trivial
    rw [fresh_item hn] at hold
    cases hold
  | requeued hitem hopen hjobs hitems =>
    obtain ⟨hfound, hid, -⟩ := found_item hitem
    refine iff_of_true (lives_on_put hitems fun old hold => ?_) trivial
    have hsame : old = _ := Option.some.inj (hold.symm.trans (hid ▸ hfound))
    exact .inr ⟨by rw [hsame, hopen], .inl rfl⟩
  | @discarded dlq_id reason reviewer_id reviewer_id_2 tenant_id trace_id item t hitem happroved
      hjobs hitems =>
    obtain ⟨hfound, hid, -⟩ := found_item hitem
    have hget : w.store.dlq_items.get? item.dlq_id = some item := hid ▸ hfound
    constructor
    · -- An item that was requeued before would change a second time.
      intro hlives _ found hsame hrequeued
      cases hitem.symm.trans hsame
      obtain ⟨after, hafter, hstep⟩ := hlives _ _ hget
      rw [hitems] at hafter
      cases (Table.get?_put_self _ _).symm.trans hafter
      rcases hstep with hstep | ⟨hopen, -⟩
      · exact hwords.1 (hstep.trans hrequeued)
      · exact hwords.2 (hrequeued.symm.trans hopen)
    · intro hfine
      refine lives_on_put hitems fun old hold => ?_
      cases hget.symm.trans hold
      rcases h.status _ _ hget with hopen | hrequeued | hdiscarded
      · exact .inr ⟨hopen, .inr rfl⟩
      · exact absurd hrequeued (hfine happroved item hitem)
      · exact .inl hdiscarded.symm

theorem starts_open (call : Call) {id : String} {item : DlqItem}
    (hnone : w.store.dlq_items.get? id = none)
    (hsome : ((machine env).step w call).1.store.dlq_items.get? id = some item) :
    item.status = "open" := by
  have hends := call_ends env w call
  generalize ((machine env).step w call).1 = w' at hends hsome
  generalize ((machine env).step w call).2 = r at hends
  -- A put of an item that was there makes no new one.
  have hold : ∀ old new : DlqItem, w'.store.dlq_items = w.store.dlq_items.put new →
      w.store.dlq_items.get? new.dlq_id = some old → False := by
    intro old new hitems hthere
    rw [hitems, Table.get?_put] at hsome
    split at hsome
    · rename_i heq
      rw [heq, hthere] at hnone
      cases hnone
    · rw [hnone] at hsome
      cases hsome
  cases hends with
  | refused call e hfine =>
    rw [hnone] at hsome
    cases hsome
  | seeded hjobs hitems =>
    rw [hitems, Table.get?_put] at hsome
    split at hsome
    · cases hsome
      rfl
    · rw [hnone] at hsome
      cases hsome
  | requeued hitem hopen hjobs hitems =>
    obtain ⟨hfound, hid, -⟩ := found_item hitem
    exact (hold _ _ hitems (hid ▸ hfound)).elim
  | discarded hitem happroved hjobs hitems =>
    obtain ⟨hfound, hid, -⟩ := found_item hitem
    exact (hold _ _ hitems (hid ▸ hfound)).elim

theorem refused_call (call : Call) {e : PyErr} (h : ((machine env).step w call).2 = .error e) :
    ((machine env).step w call).1 = w := by
  have hends := call_ends env w call
  rw [h] at hends
  generalize ((machine env).step w call).1 = w' at hends
  cases hends
  rfl

/-- A fine run keeps the items alive from each state to each later one. -/
theorem lives_on_run {calls : List Call} (hfine : Throughout (machine env) Fine calls)
    (before : List Call) :
    ∀ more, before ++ more <+: calls →
      LivesOn ((machine env).after before) ((machine env).after (before ++ more)) := by
  intro more
  induction more using List.reverseRecOn with
  | nil =>
    intro _
    rw [List.append_nil]
    exact .refl _
  | append_singleton more call ih =>
    intro hpart
    rw [← List.append_assoc] at hpart ⊢
    refine (ih ((List.prefix_append _ [call]).trans hpart)).trans ?_
    rw [Machine.after_concat]
    exact (lives_on_iff (known_after env _) (named_after env _) call).2 (hfine _ call hpart)

/-- The items live as they should exactly in the runs without a discard of an
item that was requeued. -/
theorem items_end_once_iff (env : Env) (calls : List Call) :
    LifeCycle env calls ↔ Throughout (machine env) Fine calls := by
  constructor
  · intro h before call hpart
    have hlives := h.once before [call] hpart
    rw [Machine.after_concat] at hlives
    exact (lives_on_iff (known_after env before) (named_after env before) call).1 hlives
  · intro hfine
    refine ⟨lives_on_run hfine, fun before call id item _ hnone hsome => ?_,
      fun before _ => (known_after env before).one_job, fun before call e _ he => ?_⟩
    · rw [Machine.after_concat] at hsome
      exact starts_open call hnone hsome
    · rw [Machine.after_concat]
      exact refused_call call he

/-- An item that was requeued is discarded after all. -/
theorem requeued_item_is_discarded :
    ¬ LifeCycle calm_env [.seed "job_1" "transient" "PARSE_TIMEOUT" "tenant",
      .requeue "dlq_" "trace" "tenant", .discard "dlq_" "done" "ann" "bob" "tenant" "trace"] := by
  intro h
  have hbefore : (((machine calm_env).after [.seed "job_1" "transient" "PARSE_TIMEOUT" "tenant",
      .requeue "dlq_" "trace" "tenant"]).store.dlq_items.get? "dlq_").map (fun item => item.status) =
        some "requeued" := by decide +kernel
  have hafter : (((machine calm_env).after [.seed "job_1" "transient" "PARSE_TIMEOUT" "tenant",
      .requeue "dlq_" "trace" "tenant", .discard "dlq_" "done" "ann" "bob" "tenant"
        "trace"]).store.dlq_items.get? "dlq_").map (fun item => item.status) =
          some "discarded" := by decide +kernel
  obtain ⟨item, hitem, hrequeued⟩ := Option.map_eq_some_iff.1 hbefore
  obtain ⟨item', hitem', hstep⟩ := h.once [_, _] [_] (List.prefix_refl _) _ item hitem
  have hdiscarded : item'.status = "discarded" := by
    have hsome := congrArg (Option.map fun item => item.status) hitem'
    exact Option.some.inj (hsome.symm.trans hafter)
  rcases hstep with hsame | ⟨hopen, -⟩
  · exact absurd (hdiscarded.symm.trans (hsame.trans hrequeued)) (by decide)
  · exact absurd (hrequeued.symm.trans hopen) (by decide)

end bid_evaluation.item_laws
