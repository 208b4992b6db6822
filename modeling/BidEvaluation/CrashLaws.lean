-- The laws of a service that stops at any write and starts again from its
-- snapshot: the records stay linked, and what a call did that returned is
-- still there.
import BidEvaluation.LinkLaws
import BidEvaluation.Restarts

open dict_lib stepwise crash_lib bid_evaluation.values bid_evaluation.core
  bid_evaluation.store_ops bid_evaluation.operations bid_evaluation.job_steps
  bid_evaluation.op_steps bid_evaluation.job_laws bid_evaluation.writes bid_evaluation.links
  bid_evaluation.delivery bid_evaluation.restarts
open bid_evaluation.snapshots (json_round_trip)
open bid_evaluation.snapshot_laws (json_round_trip_twice)

namespace bid_evaluation.crash_laws

variable {env : Env} {w w' : World} {s t u : Store}

/-! ## Runs -/

/-- An operation that ends, or one that a stop of the process cuts off. -/
abbrev Life := crash_lib.Event Op (String → Option EvaluationState)

def writes_of (env : Env) (op : Op) (w : World) : List World := (op.act env).written w

/-- Every state of a run of operations, stops and restarts. -/
def lives (env : Env) (w : World) (events : List Life) : List World :=
  states (writes_of env) restart w events

/-- The state after a run of operations, stops and restarts. -/
def live (env : Env) (w : World) (events : List Life) : World :=
  run (writes_of env) restart w events

/-! ## One write -/

theorem draws_grow {kind : Kind} (h : Write kind w w') : w.draws ≤ w'.draws := by
  cases h with
  | draw => exact Nat.le_succ _
  | _ => exact Nat.le_refl _

/-- A write saves the store or leaves the snapshot as it is. -/
theorem saves {kind : Kind} (h : Write kind w w') :
    snapshot w' = snapshot w ∨ snapshot w' = w'.store := by
  cases h with
  | save => exact .inr rfl
  | _ => exact .inl rfl

/-! ## What is good in a restart -/

/-- The store with what was drawn by now. -/
def at_draws (w : World) (s : Store) : World := { w with store := s }

structure Good (env : Env) (w : World) (s : Store) : Prop where
  linked : Linked s
  named : Named env (at_draws w s)
  drawn : DocumentsDrawn env (at_draws w s)

theorem Good.grows (h : Good env w s) (hdraws : w.draws ≤ w'.draws) : Good env w' s := by
  refine ⟨h.linked, ⟨fun id job hjob => ?_, fun id item hitem => ?_, fun id event hevent => ?_⟩,
    fun id document hdocument => ?_⟩
  · exact (h.named.jobs id job hjob).mono hdraws
  · exact (h.named.dlq id item hitem).mono hdraws
  · exact (h.named.outbox id event hevent).mono hdraws
  · exact (h.drawn id document hdocument).mono hdraws

theorem good_step (h : Seen env w w') (hw : Good env w w.store) : Good env w' w'.store := by
  obtain ⟨op, hop⟩ := h.op
  obtain ⟨kind, hwrite⟩ := h.write
  exact ⟨linked_step h hw.linked, named_op_step hw.named hop,
    documents_drawn_step h.link (draws_grow hwrite) hw.drawn⟩

theorem linked_reload (h : Linked s) : Linked (reload s) := by
  refine ⟨fun id event hevent => ?_, fun id hid => ?_, fun id manifest hmanifest => ?_, ?_⟩
  · rw [get?_events, Option.map_eq_some_iff] at hevent
    obtain ⟨event, hstored, rfl⟩ := hevent
    obtain ⟨job, hjob, htenant⟩ := h.events id event hstored
    refine ⟨reload_job job, ?_, htenant⟩
    rw [get?_jobs]
    exact Option.map_eq_some_iff.2 ⟨job, hjob, rfl⟩
  · rw [get?_documents]
    rw [get?_chunks, Option.isSome_map] at hid
    exact h.chunks id hid
  · rw [get?_manifests, Option.map_eq_some_iff] at hmanifest
    obtain ⟨manifest, hstored, rfl⟩ := hmanifest
    obtain ⟨⟨job, hjob, htype, hresource, htenant⟩, document, hdocument, howner⟩ :=
      h.manifests id manifest hstored
    refine ⟨⟨reload_job job, ?_, htype, hresource, htenant⟩, document, ?_, howner⟩
    · rw [get?_jobs]
      exact Option.map_eq_some_iff.2 ⟨job, hjob, rfl⟩
    · rw [get?_documents]
      exact hdocument
  · intro id document id' document' hdocument hdocument'
    rw [get?_documents] at hdocument hdocument'
    exact h.first id document id' document' hdocument hdocument'

theorem good_reload (h : Good env w s) : Good env w (reload s) := by
  refine ⟨linked_reload h.linked, ⟨fun id job hjob => ?_, fun id item hitem => ?_,
    fun id event hevent => ?_⟩, fun id document hdocument => ?_⟩
  · obtain ⟨job, hstored, -⟩ := Option.map_eq_some_iff.1 ((get?_jobs s id).symm.trans hjob)
    exact h.named.jobs id job hstored
  · exact h.named.dlq id item ((get?_items s id).symm.trans hitem)
  · obtain ⟨event, hstored, -⟩ := Option.map_eq_some_iff.1 ((get?_events s id).symm.trans hevent)
    exact h.named.outbox id event hstored
  · exact h.drawn id document ((get?_documents s id).symm.trans hdocument)

theorem good_empty (w : World) : Good env w Store.empty := by
  refine ⟨linked_empty, ⟨fun id job hjob => ?_, fun id item hitem => ?_,
    fun id event hevent => ?_⟩, fun id document hdocument => ?_⟩
  · simp [at_draws, Store.empty] at hjob
  · simp [at_draws, Store.empty] at hitem
  · simp [at_draws, Store.empty] at hevent
  · simp [at_draws, Store.empty] at hdocument

/-! ## A good memory stays good -/

theorem seen_of_good (h : Good env w w.store) (op : Op) :
    Steps (Seen env) w (writes_of env op w) := seen_op h.named h.linked h.drawn op

/-- The memory of a world and what a restart of it would find. -/
abbrev BothAre (P : World → Store → Prop) (w : World) : Prop :=
  Sound (fun w : World => w.store) snapshot P w

theorem both_start : BothAre (Good env) World.start := ⟨good_empty _, good_empty _⟩

/-- What each write keeps of a good memory, and each restart, is so of both in
every state of a run. -/
theorem both_lives {P : World → Store → Prop} (hgood : ∀ w s, P w s → Good env w s)
    (hstep : ∀ a b, Seen env a b → P a a.store → P b b.store)
    (hgrows : ∀ a b, Seen env a b → ∀ s, P a s → P b s)
    (hreload : ∀ waiting w s, P w s → P (restart waiting w) (reload s) ∧ P (restart waiting w) s)
    (events : List Life) (h : BothAre P w) : ∀ t ∈ lives env w events, BothAre P t := by
  refine states_invariant (R := Seen env) (fun op t ht => seen_of_good (hgood t _ ht.memory) op)
    (fun a b hseen => Careful.sound ⟨?_, hstep a b hseen, hgrows a b hseen⟩)
    (fun waiting t ht => ?_) events h
  · obtain ⟨kind, hwrite⟩ := hseen.write
    exact saves hwrite
  · exact ⟨(hreload waiting t _ ht.saved).1, (hreload waiting t _ ht.saved).2⟩

theorem good_grows (h : Seen env w w') (hs : Good env w s) : Good env w' s := by
  obtain ⟨kind, hwrite⟩ := h.write
  exact hs.grows (draws_grow hwrite)

theorem good_lives (events : List Life) (h : BothAre (Good env) w) :
    ∀ t ∈ lives env w events, BothAre (Good env) t :=
  both_lives (fun _ _ h => h) (fun _ _ => good_step) (fun _ _ hseen _ => good_grows hseen)
    (fun _ _ _ h => ⟨(good_reload h).grows (Nat.le_refl _), h.grows (Nat.le_refl _)⟩) events h

/-- Wherever the process stops, and however often: in memory and in the
snapshot each event has its job, each chunk list its document, each manifest
its job and its document, and no tenant has two documents of one content. -/
theorem records_stay_linked (env : Env) (events : List Life) :
    ∀ t ∈ lives env World.start events, Linked t.store ∧ ∀ s ∈ t.disk, Linked s := by
  intro t ht
  have hsound := good_lives events both_start t ht
  refine ⟨hsound.memory.linked, fun s hs => ?_⟩
  have hsaved := hsound.saved.linked
  rw [snapshot, Option.mem_def.1 hs] at hsaved
  exact hsaved

/-- The process stops in the middle of a second upload, and in the middle of
a run of the job that was cancelled in between. -/
def two_stops : List Life × List Life :=
  ([.done (.upload bid_file false), .stopped (.upload bid_file true) 6 fun _ => none],
    [.stopped (.run_job_once "job_a" "tenant" ⟨true, false, none⟩) 1 fun _ => none,
      .done (.cancel_job "job_a" "tenant")])

theorem stopped_upload_stays_linked : Linked (live calm_env World.start two_stops.1).store :=
  (records_stay_linked calm_env two_stops.1 _ (run_mem (by decide +kernel))).1

/-! ## What lasts -/

/-- What a later store still has of an earlier one. A job at its end is at
the same end, and the log has only grown. -/
structure Lasts (s t : Store) : Prop where
  jobs : ∀ id job, s.jobs.get? id = some job → ∃ job', t.jobs.get? id = some job' ∧
    SameWork job job' ∧ (Terminal job.status → job'.status = job.status)
  documents : ∀ id document, s.documents.get? id = some document →
    ∃ document', t.documents.get? id = some document' ∧ SameFile document document'
  manifests : ∀ id manifest, s.parse_manifests.get? id = some manifest →
    ∃ manifest', t.parse_manifests.get? id = some manifest' ∧ SameParse manifest manifest'
  events : ∀ id event, s.domain_events_outbox.get? id = some event →
    ∃ event', t.domain_events_outbox.get? id = some event' ∧
      reload_event event' = reload_event event
  items : ∀ id item, s.dlq_items.get? id = some item → ∃ item', t.dlq_items.get? id = some item' ∧
    item'.job_id = item.job_id ∧ item'.tenant_id = item.tenant_id
  logs : s.audit_logs.map reload_log <+: t.audit_logs.map reload_log

theorem Lasts.refl (s : Store) : Lasts s s :=
  ⟨fun _ job h => ⟨job, h, ⟨rfl, rfl, rfl⟩, fun _ => rfl⟩,
    fun _ document h => ⟨document, h, SameFile.refl document⟩,
    fun _ manifest h => ⟨manifest, h, SameParse.refl manifest⟩, fun _ event h => ⟨event, h, rfl⟩,
    fun _ item h => ⟨item, h, rfl, rfl⟩, List.prefix_refl _⟩

theorem Lasts.trans (h : Lasts s t) (h' : Lasts t u) : Lasts s u := by
  refine ⟨fun id job hjob => ?_, fun id document hdocument => ?_, fun id manifest hmanifest => ?_,
    fun id event hevent => ?_, fun id item hitem => ?_, h.logs.trans h'.logs⟩
  · obtain ⟨job₂, hjob₂, hwork, hend⟩ := h.jobs id job hjob
    obtain ⟨job₃, hjob₃, hwork', hend'⟩ := h'.jobs id job₂ hjob₂
    refine ⟨job₃, hjob₃, ⟨hwork'.tenant_id.trans hwork.tenant_id,
      hwork'.job_type.trans hwork.job_type, hwork'.resource_id.trans hwork.resource_id⟩, ?_⟩
    intro hterminal
    have hsame := hend hterminal
    exact (hend' (hsame ▸ hterminal)).trans hsame
  · obtain ⟨document₂, hdocument₂, hfile⟩ := h.documents id document hdocument
    obtain ⟨document₃, hdocument₃, hfile'⟩ := h'.documents id document₂ hdocument₂
    exact ⟨document₃, hdocument₃, hfile.trans hfile'⟩
  · obtain ⟨manifest₂, hmanifest₂, hparse⟩ := h.manifests id manifest hmanifest
    obtain ⟨manifest₃, hmanifest₃, hparse'⟩ := h'.manifests id manifest₂ hmanifest₂
    exact ⟨manifest₃, hmanifest₃, hparse.trans hparse'⟩
  · obtain ⟨event₂, hevent₂, hsame⟩ := h.events id event hevent
    obtain ⟨event₃, hevent₃, hsame'⟩ := h'.events id event₂ hevent₂
    exact ⟨event₃, hevent₃, hsame'.trans hsame⟩
  · obtain ⟨item₂, hitem₂, hjob, htenant⟩ := h.items id item hitem
    obtain ⟨item₃, hitem₃, hjob', htenant'⟩ := h'.items id item₂ hitem₂
    exact ⟨item₃, hitem₃, hjob'.trans hjob, htenant'.trans htenant⟩

/-- A store that is written and read back has all that it had. -/
theorem lasts_reload (s : Store) : Lasts s (reload s) := by
  refine ⟨fun id job hjob => ?_, fun id document hdocument => ?_, fun id manifest hmanifest => ?_,
    fun id event hevent => ?_, fun id item hitem => ?_, ?_⟩
  · refine ⟨reload_job job, ?_, ⟨rfl, rfl, rfl⟩, fun _ => rfl⟩
    rw [get?_jobs, hjob, Option.map_some]
  · exact ⟨document, (get?_documents s id).trans hdocument, SameFile.refl document⟩
  · refine ⟨reload_manifest manifest, ?_, rfl, rfl, rfl⟩
    rw [get?_manifests, hmanifest, Option.map_some]
  · refine ⟨reload_event event, ?_, ?_⟩
    · rw [get?_events, hevent, Option.map_some]
    · simp only [reload_event, json_round_trip_twice]
  · exact ⟨item, (get?_items s id).trans hitem, rfl, rfl⟩
  · have hlog : reload_log ∘ reload_log = reload_log := by
      funext log
      simp only [Function.comp_apply, reload_log, json_round_trip_twice]
    simp only [reload, List.map_map, hlog]
    exact List.prefix_refl _

/-- The jobs of one write. -/
theorem jobs_last {op : Op} (h : OpStep env anyJob op w w') {id : String} {job : Job}
    (hjob : w.store.jobs.get? id = some job) : ∃ job', w'.store.jobs.get? id = some job' ∧
      SameWork job job' ∧ (Terminal job.status → job'.status = job.status) := by
  have hkept : job_laws.Kept id job w := ⟨job, hjob, rfl, rfl, rfl⟩
  obtain ⟨job', hjob', hwork⟩ := kept_step h hkept
  refine ⟨job', hjob', hwork, fun hend => ?_⟩
  obtain ⟨ended, hended, hstatus⟩ := ended_step hend (status_step h) ⟨job, hjob, rfl⟩
  rw [hjob'] at hended
  cases hended
  exact hstatus

/-- The dead letter items of one write. -/
theorem items_last (h : DlqStep env w w') {id : String} {item : DlqItem}
    (hitem : w.store.dlq_items.get? id = some item) :
    ∃ item', w'.store.dlq_items.get? id = some item' ∧ item'.job_id = item.job_id ∧
      item'.tenant_id = item.tenant_id := by
  cases h with
  | same hsame => exact ⟨item, hsame ▸ hitem, rfl, rfl⟩
  | seeded new hid hnew hitems =>
    refine ⟨item, ?_, rfl, rfl⟩
    rw [hitems, Table.get?_put, if_neg, hitem]
    rintro rfl
    rw [hitem] at hnew
    cases hnew
  | closed old new hstored hid hjob htenant hitems =>
    rw [hitems, Table.get?_put]
    split
    · rename_i heq
      rw [heq, hid, hstored] at hitem
      cases hitem
      exact ⟨new, rfl, hjob, htenant⟩
    · exact ⟨item, hitem, rfl, rfl⟩

/-- The log of one write. -/
theorem logs_last {kind : Kind} (h : Write kind w w') :
    w.store.audit_logs <+: w'.store.audit_logs := by
  cases h with
  | store _ hstore =>
    cases hstore with
    | audit => exact List.prefix_append _ _
    | _ => exact List.prefix_refl _
  | _ => exact List.prefix_refl _

theorem lasts_step (h : Seen env w w') : Lasts w.store w'.store := by
  obtain ⟨op, hop⟩ := h.op
  obtain ⟨kind, hwrite⟩ := h.write
  have hstays := stays_step h.link
  refine ⟨fun id job hjob => jobs_last hop hjob, hstays.documents, hstays.manifests,
    fun id event hevent => ⟨event, h.post.kept hevent, rfl⟩, fun id item hitem => ?_,
    (logs_last hwrite).map reload_log⟩
  cases hop with
  | step hstep => exact items_last hstep.dlq hitem
  | cancelled job_id tenant_id heq hcancel =>
    obtain ⟨job, -, -, -, -, rfl⟩ := hcancel
    exact ⟨item, hitem, rfl, rfl⟩

/-! ## What a call that returned has done -/

/-- A program that returned has saved all that it wrote. -/
def Saves (m : Act α) (w : World) : Prop :=
  Meets (fun _ _ => True) m w fun r t => ∀ a, r = .ok a → t.disk = some t.store

theorem saves_raise (e : PyErr) : Saves (raise e : Act α) w :=
  meets_raise.2 fun a h => by cases h

theorem saves_after {m : Act α} {f : α → Act β} (h : ∀ a t, Saves (f a) t) : Saves (m >>= f) w := by
  refine Meets.bind (P := fun _ _ => True) ((keeps_true m).meets w) (fun a t _ => h a t) ?_
  rintro e t - b ⟨⟩

theorem saves_saving (hp : env.persistent = true) (m : Act α) : Saves (saving env m) w := by
  refine saves_after fun a t => ?_
  simp only [Saves, save_state, hp, if_true, meets_bind, meets_write, then_ok, meets_pure]
  exact ⟨trivial, fun _ _ => trivial⟩

theorem saves_quiet {m : Act α} (h : Saves m w) : Saves (quiet m) w := by
  refine Meets.bind h (fun a t ht => meets_pure.2 fun _ _ => ht a rfl) ?_
  rintro e t - b ⟨⟩

theorem saves_op (hp : env.persistent = true) (op : Op) (w : World) : Saves (op.act env) w := by
  cases op with
  | resume evaluation_id resume_token payload =>
    refine saves_quiet (saves_after fun consumed t => ?_)
    exact meets_ite.2 ⟨fun _ => saves_saving hp _, fun _ => saves_raise _⟩
  | cancel_job job_id tenant_id => exact saves_saving hp _
  | discard_dlq_item dlq_id reason reviewer_id reviewer_id_2 tenant_id trace_id =>
    exact saves_saving hp _
  | execute_rollback release_id tenant_id trace_id trigger_gate => exact saves_saving hp _
  | _ => exact saves_quiet (saves_saving hp _)

/-- A memory that is good and has all that `s` had, where there is a snapshot. -/
structure Keeper (env : Env) (s : Store) (w : World) (t : Store) : Prop where
  good : Good env w t
  lasts : Lasts s t
  saved : w.disk.isSome

theorem disk_stays {kind : Kind} (h : Write kind w w') (hw : w.disk.isSome) : w'.disk.isSome := by
  cases h with
  | save => rfl
  | _ => exact hw

theorem keeper_lives (events : List Life) (h : BothAre (Keeper env s) w) :
    ∀ t ∈ lives env w events, BothAre (Keeper env s) t := by
  have hdisk : ∀ {a b}, Seen env a b → a.disk.isSome → b.disk.isSome := by
    intro a b hseen ha
    obtain ⟨kind, hwrite⟩ := hseen.write
    exact disk_stays hwrite ha
  refine both_lives (fun _ _ h => h.good) (fun a b hseen h => ?_) (fun a b hseen s h => ?_)
    (fun waiting w s h => ⟨?_, ?_⟩) events h
  · exact ⟨good_step hseen h.good, h.lasts.trans (lasts_step hseen), hdisk hseen h.saved⟩
  · exact ⟨good_grows hseen h.good, h.lasts, hdisk hseen h.saved⟩
  · exact ⟨(good_reload h.good).grows (Nat.le_refl _), h.lasts.trans (lasts_reload s), h.saved⟩
  · exact ⟨h.good.grows (Nat.le_refl _), h.lasts, h.saved⟩

/-- On a persistent store, what an operation that returned has left behind
survives all later operations, and any stop and restart of the process in
the middle of them. -/
theorem returned_work_survives (env : Env) (hp : env.persistent = true) (events : List Life)
    (op : Op) (hok : (op.act env).result (live env World.start events) = .ok ())
    (later : List Life) : ∀ t ∈ lives env (perform env (live env World.start events) op) later,
      Lasts (perform env (live env World.start events) op).store t.store ∧
        ∃ s ∈ t.disk, Lasts (perform env (live env World.start events) op).store s := by
  generalize hw : live env World.start events = w at hok
  have hboth : BothAre (Good env) w := hw ▸ last_of_all both_start (good_lives events both_start)
  have hdisk : (perform env w op).disk = some (perform env w op).store :=
    (saves_op hp op w).2 () hok
  have hgood : Good env (perform env w op) (perform env w op).store :=
    (seen_of_good hboth.memory op).invariant_last (I := fun t => Good env t t.store)
      (fun _ _ => good_step) hboth.memory
  have hkeeper : Keeper env (perform env w op).store (perform env w op) (perform env w op).store :=
    ⟨hgood, Lasts.refl _, by rw [hdisk]; rfl⟩
  have hstart : BothAre (Keeper env (perform env w op).store) (perform env w op) := by
    refine ⟨hkeeper, ?_⟩
    rw [snapshot, hdisk]
    exact hkeeper
  intro t ht
  have hthere := keeper_lives later hstart t ht
  obtain ⟨s, hs⟩ := Option.isSome_iff_exists.1 hthere.saved.saved
  have hlasts := hthere.saved.lasts
  rw [snapshot, hs] at hlasts
  exact ⟨hthere.memory.lasts, s, hs, hlasts⟩

theorem cancelled_job_stays_failed :
    ∃ job, (live calm_env (perform calm_env (live calm_env World.start two_stops.1)
      (.cancel_job "job_a" "tenant")) two_stops.2).store.jobs.get? "job_a" = some job ∧
        job.status = .failed := by
  have hok : ((Op.cancel_job "job_a" "tenant").act calm_env).result
      (live calm_env World.start two_stops.1) = .ok () := ok_of_toOption (by decide +kernel)
  have hfailed : ((perform calm_env (live calm_env World.start two_stops.1)
      (.cancel_job "job_a" "tenant")).store.jobs.get? "job_a").map (fun job => job.status) =
      some .failed := by decide +kernel
  obtain ⟨job, hjob, hstatus⟩ := Option.map_eq_some_iff.1 hfailed
  obtain ⟨hlasts, -⟩ := returned_work_survives calm_env rfl two_stops.1
    (.cancel_job "job_a" "tenant") hok two_stops.2 _ (run_mem (by decide +kernel))
  obtain ⟨job', hjob', -, hend⟩ := hlasts.jobs "job_a" job hjob
  exact ⟨job', hjob', (hend (.inr hstatus)).trans hstatus⟩

end bid_evaluation.crash_laws
