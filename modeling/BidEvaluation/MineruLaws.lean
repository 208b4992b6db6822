-- The result of the MinerU service should be what the document gets. The
-- service ends with a call that the repository of the store does not take,
-- and the store asks the repository for a method that it does not have:
-- what the document gets is what the next parsers make of its file.
import BidEvaluation.MineruChunks

open dict_lib stepwise bid_evaluation.values bid_evaluation.core bid_evaluation.store_ops
  bid_evaluation.store_workflow bid_evaluation.store_admin bid_evaluation.store_retrieval
  bid_evaluation.store_parse bid_evaluation.job_run bid_evaluation.operations
  bid_evaluation.frames bid_evaluation.job_steps bid_evaluation.run_steps
  bid_evaluation.op_steps bid_evaluation.job_laws bid_evaluation.endings
  bid_evaluation.parse_laws bid_evaluation.mineru_chunks

namespace bid_evaluation.mineru_laws

variable {env : Env} {w w' : World}

/-! ## What leaves the manifests alone -/

abbrev SameManifests (w w' : World) : Prop := w'.store.parse_manifests = w.store.parse_manifests

abbrev LeavesManifests (m : Act α) : Prop := Keeps SameManifests m

theorem LeavesManifests.final {m : Act α} (h : LeavesManifests m) (w : World) :
    SameManifests w (m.final w) := Keeps.final h (fun _ => rfl) (fun _ _ _ h h' => h'.trans h) w

theorem ends_leaving {m : Act α} (h : LeavesManifests m) (w : World) :
    Meets AnyStep m w (fun _ w' => SameManifests w w') := ⟨keeps_true m w, h.final w⟩

theorem leaves_draw : LeavesManifests draw :=
  keeps_bind keeps_read fun _ => keeps_bind (keeps_write fun _ => rfl) fun _ => keeps_pure _

theorem leaves_uuid4 (env : Env) : LeavesManifests (uuid4_hex12 env) :=
  keeps_bind leaves_draw fun _ => keeps_pure _

theorem leaves_utcnow (env : Env) : LeavesManifests (utcnow env) :=
  keeps_bind leaves_draw fun _ => keeps_pure _

theorem leaves_saving {m : Act α} (h : LeavesManifests m) : LeavesManifests (saving env m) := by
  refine keeps_bind h fun _ => keeps_bind ?_ fun _ => keeps_pure _
  exact keeps_ite (keeps_write fun _ => rfl) (keeps_pure _)

theorem leaves_checkpoint (env : Env) (thread_id job_id tenant_id node status : String)
    (payload : PyDict) : LeavesManifests
      (append_workflow_checkpoint env thread_id job_id tenant_id node status payload) :=
  keeps_bind (leaves_uuid4 env) fun _ => keeps_bind (leaves_utcnow env) fun _ =>
    keeps_write fun _ => rfl

theorem leaves_scope (entity_tenant_id tenant_id : String) :
    LeavesManifests (assert_tenant_scope entity_tenant_id tenant_id) :=
  keeps_ite (keeps_raise _) (keeps_pure _)

theorem leaves_get_document (document_id tenant_id : String) :
    LeavesManifests (get_document_for_tenant document_id tenant_id) := by
  refine keeps_bind keeps_read fun w => ?_
  split
  · exact keeps_pure _
  · exact keeps_bind (leaves_scope _ _) fun _ => keeps_pure _

theorem leaves_mark_document (job : Job) (tenant_id status : String) :
    LeavesManifests (mark_document job tenant_id status) := by
  refine keeps_bind (leaves_get_document _ _) fun document => ?_
  split
  · exact keeps_pure _
  · exact keeps_bind (keeps_write fun _ => rfl) fun _ => keeps_pure _

theorem leaves_candidates (env : Env) (attempts : Nat) (last_error : Option String)
    (names : List String) : LeavesManifests (parse_candidates env attempts last_error names) := by
  induction names generalizing last_error with
  | nil => exact keeps_raise _
  | cons name rest ih =>
    unfold parse_candidates
    split
    · exact ih _
    · refine keeps_bind leaves_draw fun n => ?_
      split
      · exact keeps_pure _
      · exact ih _
      · exact keeps_raise _

theorem leaves_parse_by_route (env : Env) (document_id : String)
    (manifest : Option ParseManifest) : LeavesManifests (parse_by_route env document_id manifest) :=
  keeps_bind (leaves_candidates env _ _ _) fun _ => keeps_bind (keeps_lift _) fun _ =>
    keeps_ite (keeps_bind (keeps_write fun _ => rfl) fun _ => keeps_pure _) (keeps_pure _)

theorem leaves_register_source (env : Env) (chunk_id : String) (source : CitationSource) :
    LeavesManifests (register_citation_source env chunk_id source) :=
  leaves_saving (keeps_write fun _ => rfl)

theorem leaves_register_chunks (env : Env) (document : Document) (tenant_id : String)
    (chunks : List PyDict) : LeavesManifests (register_chunks env document tenant_id chunks) :=
  keeps_foldlM (fun _ _ => keeps_bind (keeps_lift _) fun _ => leaves_register_source env _ _) _ _

theorem leaves_index (env : Env) (tenant_id project_id document_id : String)
    (chunks : List PyDict) : LeavesManifests
      (maybe_index_chunks_to_lightrag env tenant_id project_id document_id chunks) := by
  have hsegment : ∀ value name, LeavesManifests (validate_index_segment value name) := fun _ _ =>
    keeps_ite (keeps_pure _) (keeps_raise _)
  have hlog : ∀ failed, LeavesManifests (log_index_write document_id chunks failed) := fun _ =>
    keeps_write fun _ => rfl
  refine keeps_ite (keeps_pure _) (keeps_bind ?_ fun _ =>
    keeps_bind (keeps_write fun _ => rfl) fun _ => keeps_bind leaves_draw fun n => ?_)
  · exact keeps_bind (hsegment _ _) fun _ => keeps_bind (hsegment _ _) fun _ => keeps_pure _
  · split
    · exact hlog _
    · exact keeps_bind (hlog _) fun _ => keeps_write fun _ => rfl
    · exact keeps_bind (hlog _) fun _ => keeps_raise _

/-! ## What is drawn before the service is called -/

/-- The manifests stay, and the world moved on by some draws. -/
structure Still (draws : Nat) (w w' : World) : Prop where
  manifests : w'.store.parse_manifests = w.store.parse_manifests
  draws : w'.draws = w.draws + draws

theorem Still.trans {m n : Nat} {t t' : World} (h : Still m w t) (h' : Still n t t') :
    Still (m + n) w t' :=
  ⟨h'.manifests.trans h.manifests, by rw [h'.draws, h.draws, Nat.add_assoc]⟩

theorem Still.add {m n : Nat} {t : World} (h : Still m w t) (hmn : m = n) : Still n w t := hmn ▸ h

theorem draw.still (w : World) : Meets AnyStep draw w (fun _ w' => Still 1 w w') :=
  (draw.reads w).post fun _ t h => ⟨by rw [h.2], by rw [h.2]⟩

theorem uuid4.still (w : World) : Meets AnyStep (uuid4_hex12 env) w (fun _ w' => Still 1 w w') :=
  (uuid4.reads w).post fun _ t h => ⟨by rw [h.2], by rw [h.2]⟩

theorem utcnow.still (w : World) : Meets AnyStep (utcnow env) w (fun _ w' => Still 1 w w') :=
  (utcnow.reads w).post fun _ t h => ⟨by rw [h.2], by rw [h.2]⟩

theorem new_thread_id.still (kind : String) (w : World) :
    Meets AnyStep (new_thread_id env kind) w (fun _ w' => Still 1 w w') := by
  unfold new_thread_id
  refine (draw.still w).bind ?_ (fun e t h => h)
  intro n t h
  exact meets_pure.2 h

theorem persist_job.still (job : Job) (w : World) :
    Meets AnyStep (persist_job job) w (fun _ w' => Still 0 w w') := by
  simp only [persist_job, update, meets_bind, meets_write, then_ok, meets_pure, any_step, true_and]
  exact ⟨rfl, rfl⟩

theorem saving.still {draws : Nat} {m : Act α}
    (h : Meets AnyStep m w (fun _ w' => Still draws w w')) :
    Meets AnyStep (saving env m) w (fun _ w' => Still draws w w') :=
  saved.spec h fun _ _ _ hs hstore hdraws =>
    ⟨by rw [hstore, hs.manifests], by rw [hdraws, hs.draws]⟩

theorem checkpoint.still (thread_id job_id tenant_id node status : String) (payload : PyDict)
    (w : World) :
    Meets AnyStep (append_workflow_checkpoint env thread_id job_id tenant_id node status payload) w
      (fun _ w' => Still 2 w w') := by
  unfold append_workflow_checkpoint
  refine (uuid4.reads w).bind ?_ (by rintro e t ⟨⟨hex, he⟩, -⟩; cases he)
  rintro hex t ⟨-, rfl⟩
  refine (utcnow.reads _).bind ?_ (by rintro e t ⟨he, -⟩; cases he)
  rintro now t ⟨-, rfl⟩
  simp only [update, meets_write, any_step, true_and]
  exact ⟨rfl, rfl⟩

theorem transition_job_status.still (job_id : String) (status : JobStatus)
    (tenant_id : Option String) (w : World) :
    Meets AnyStep (transition_job_status env job_id status tenant_id) w
      (fun _ w' => Still 0 w w') := by
  unfold transition_job_status
  refine saving.still ((require_job.spec w job_id tenant_id).bind ?_ ?_)
  · rintro job t ⟨rfl, -⟩
    rw [meets_ite, meets_ite]
    refine ⟨fun _ => meets_pure.2 ⟨rfl, rfl⟩, fun _ => ⟨fun _ => meets_raise.2 ⟨rfl, rfl⟩, fun _ => ?_⟩⟩
    exact persist_job.still _ t
  · rintro e t ⟨rfl, -⟩
    exact ⟨rfl, rfl⟩

theorem ensure_thread.still (job : Job) (w : World) :
    Meets AnyStep (ensure_thread env job) w
      (fun _ w' => Still (if job.thread_id = "" then 1 else 0) w w') := by
  unfold ensure_thread
  rw [meets_ite]
  constructor
  · intro hno
    rw [if_pos hno]
    refine (new_thread_id.still "job" w).bind ?_ (fun e t h => h)
    intro thread_id t h
    exact (persist_job.still _ t).post fun _ t' h' => h.trans h'
  · intro hthread
    rw [if_neg hthread, meets_pure]
    exact ⟨rfl, rfl⟩

theorem move_to_running.still {job : Job} {tenant_id : String}
    (hv : Visible w job (some tenant_id)) :
    Meets AnyStep (move_to_running env job tenant_id) w
      (fun _ w' => Still (if can_start job.status then 2 else 0) w w') := by
  unfold move_to_running
  rw [meets_ite]
  constructor
  · intro hstart
    have hmove : Meets (Step env anyJob)
        (transition_job_status env job.job_id .running (some tenant_id)) w _ :=
      transition_job_status.became hv (edge_to_running hstart) trivial
    rw [if_pos hstart]
    refine ((meets_any hmove).and (transition_job_status.still _ _ _ w)).bind ?_
      (by rintro e t ⟨⟨he, -⟩, -⟩; cases he)
    rintro running t ⟨-, hstill⟩
    refine (checkpoint.still _ _ _ _ _ _ t).bind ?_ ?_
    · intro _ t' hstill'
      rw [meets_pure]
      exact (hstill.trans hstill').add (Nat.zero_add 2)
    · intro e t' hstill'
      exact (hstill.trans hstill').add (Nat.zero_add 2)
  · intro hno
    rw [if_neg hno, meets_pure]
    exact ⟨rfl, rfl⟩

/-! ## The manifest before the service is called -/

def begun (manifest : ParseManifest) (now : Int) : ParseManifest :=
  { manifest with
    started_at := some (manifest.started_at.getD now)
    status := "running"
    error_code := none }

def closed (manifest : ParseManifest) (now : Int) : ParseManifest :=
  { manifest with status := "succeeded", error_code := none, ended_at := some now }

def start_draws (manifest : ParseManifest) : Nat := if manifest.started_at = none then 1 else 0

/-- The manifest of the job is this one, and the world moved on by some draws. -/
structure Manifested (draws : Nat) (w w' : World) (job_id tenant_id : String)
    (manifest : ParseManifest) : Prop where
  found : get_parse_manifest_for_tenant w'.store job_id tenant_id = some manifest
  draws : w'.draws = w.draws + draws

theorem manifest_key {job_id tenant_id : String} {manifest : ParseManifest}
    (h : get_parse_manifest_for_tenant w.store job_id tenant_id = some manifest) :
    manifest.job_id = job_id ∧ manifest.tenant_id = tenant_id := by
  unfold get_parse_manifest_for_tenant at h
  obtain ⟨hfound, htenant⟩ := Option.filter_eq_some_iff.1 h
  exact ⟨Table.key_of_get? _ hfound, by simpa using htenant⟩

theorem put_manifest_found {s : Store} {manifest : ParseManifest} {job_id tenant_id : String}
    (hjob : manifest.job_id = job_id) (htenant : manifest.tenant_id = tenant_id) :
    get_parse_manifest_for_tenant { s with parse_manifests := s.parse_manifests.put manifest }
      job_id tenant_id = some manifest := by
  subst hjob
  unfold get_parse_manifest_for_tenant
  rw [Table.get?_put_self]
  simp [htenant]

theorem same_manifest (h : w'.store.parse_manifests = w.store.parse_manifests)
    (job_id tenant_id : String) : get_parse_manifest_for_tenant w'.store job_id tenant_id =
      get_parse_manifest_for_tenant w.store job_id tenant_id := by
  unfold get_parse_manifest_for_tenant
  rw [h]

theorem start_parse.manifested (env : Env) {job : Job} {tenant_id : String} {manifest : ParseManifest}
    (htype : job.job_type = .parse)
    (hfound : get_parse_manifest_for_tenant w.store job.job_id tenant_id = some manifest) :
    Meets AnyStep (start_parse env job tenant_id) w (fun _ w' => ∃ now,
      Manifested (start_draws manifest) w w' job.job_id tenant_id (begun manifest now)) := by
  have hkey := manifest_key hfound
  unfold start_parse change_manifest started_manifest first_start start_draws
  rw [if_pos htype]
  simp only [meets_bind, meets_read, then_ok, hfound]
  rcases hstart : manifest.started_at with _ | started_at
  · rw [if_pos rfl]
    refine (utcnow.reads w).bind ?_ (by rintro e t ⟨he, -⟩; cases he)
    rintro now t ⟨-, rfl⟩
    simp only [meets_pure, then_ok, persist_parse_manifest, update, meets_write, any_step, true_and]
    refine ⟨now, ?_, rfl⟩
    unfold begun
    rw [hstart]
    exact put_manifest_found hkey.1 hkey.2
  · rw [if_neg (by simp)]
    simp only [meets_pure, then_ok, persist_parse_manifest, update, meets_write, any_step, true_and]
    refine ⟨0, ?_, rfl⟩
    unfold begun
    rw [hstart]
    exact put_manifest_found hkey.1 hkey.2

/-- What a job draws before it has started, but for its manifest. -/
def begin_draws (job : Job) : Nat :=
  (if job.thread_id = "" then 1 else 0) + (if can_start job.status then 2 else 0)

theorem Manifested.after {m n : Nat} {t t' : World} {job_id tenant_id : String}
    {manifest : ParseManifest} (h : Still m w t) (h' : Manifested n t t' job_id tenant_id manifest) :
    Manifested (m + n) w t' job_id tenant_id manifest :=
  ⟨h'.found, by rw [h'.draws, h.draws, Nat.add_assoc]⟩

theorem Manifested.still {m n : Nat} {t t' : World} {job_id tenant_id : String}
    {manifest : ParseManifest} (h : Manifested m w t job_id tenant_id manifest) (h' : Still n t t') :
    Manifested (m + n) w t' job_id tenant_id manifest :=
  ⟨(same_manifest h'.manifests _ _).trans h.found, by rw [h'.draws, h.draws, Nat.add_assoc]⟩

/-- The start of a parse job starts its manifest. -/
theorem begin_run.manifested {job : Job} {tenant_id : String} {manifest : ParseManifest}
    (hv : Visible w job (some tenant_id)) (htype : job.job_type = .parse)
    (hfound : get_parse_manifest_for_tenant w.store job.job_id tenant_id = some manifest) :
    Meets AnyStep (begin_run env job.job_id tenant_id) w (fun _ w' => ∃ now,
      Manifested (begin_draws job + start_draws manifest) w w' job.job_id tenant_id
        (begun manifest now)) := by
  unfold begin_run
  refine (require_job.spec w job.job_id (some tenant_id)).bind ?_ ?_
  · rintro found t ⟨rfl, hjob⟩
    obtain ⟨hid, hfv⟩ := (hjob found).1 rfl
    cases hv.stored.unique hfv.stored hid
    have hthread : Meets (Step env anyJob) (ensure_thread env job) t _ := ensure_thread.spec hv.stored
    refine ((meets_any hthread).and (ensure_thread.still job t)).bind ?_
      (by rintro e t' ⟨⟨job', he, -⟩, -⟩; cases he)
    rintro job₁ t₁ ⟨⟨_, ⟨⟩, hb₁, hstatus₁, -⟩, hstill₁⟩
    have hmove : Meets (Step env anyJob) (move_to_running env job₁ tenant_id) t₁ _ :=
      move_to_running.spec any_free (hb₁.visible hv)
    refine ((meets_any hmove).and (move_to_running.still (hb₁.visible hv))).bind ?_
      (by rintro e t' ⟨⟨job', he, -⟩, -⟩; cases he)
    rintro job₂ t₂ ⟨⟨_, ⟨⟩, hb₂, -, -⟩, hstill₂⟩
    rw [hstatus₁] at hstill₂
    have hstill := hstill₁.trans hstill₂
    have hsame := hb₁.same.trans hb₂.same
    have hfound₂ : get_parse_manifest_for_tenant t₂.store job₂.job_id tenant_id = some manifest := by
      rw [hsame.job_id, same_manifest hstill.manifests]
      exact hfound
    have hstart := start_parse.manifested env (hsame.job_type.trans htype) hfound₂
    rw [hsame.job_id] at hstart
    refine hstart.bind ?_ ?_
    · rintro _ t₃ ⟨now, hmanifest⟩
      simp only [require_running, meets_bind, meets_ite, raise_api, meets_raise, then_error, then_ok,
        meets_pure]
      exact ⟨fun _ => ⟨now, hmanifest.after hstill⟩, fun _ => ⟨now, hmanifest.after hstill⟩⟩
    · rintro e t₃ ⟨now, hmanifest⟩
      exact ⟨now, hmanifest.after hstill⟩
  · rintro e t ⟨rfl, hjob⟩
    exact absurd ((hjob job).2 ⟨rfl, hv⟩) (by simp)

theorem move_to_succeeded.still (job : Job) (tenant_id : String) (w : World) :
    Meets AnyStep (move_to_succeeded env job tenant_id) w (fun _ w' => Still 0 w w') := by
  unfold move_to_succeeded
  refine (transition_job_status.still _ _ _ w).bind ?_ (fun e t h => h)
  intro succeeded t h
  exact (persist_job.still _ t).post fun _ t' h' => h.trans h'

/-- The end of the job closes its manifest. That is what the parser gets. -/
theorem mark_parsed.manifested {job : Job} {tenant_id : String} {manifest : ParseManifest}
    (hfound : get_parse_manifest_for_tenant w.store job.job_id tenant_id = some manifest) :
    Meets AnyStep (mark_parsed env job tenant_id) w (fun r w' => ∃ now,
      Manifested 1 w w' job.job_id tenant_id (closed manifest now) ∧
        ∀ document manifest', r = .ok (document, manifest') → manifest' = some (closed manifest now)) := by
  have hkey := manifest_key hfound
  unfold mark_parsed change_manifest succeeded_manifest
  simp only [meets_bind, meets_read, then_ok, hfound]
  refine (utcnow.reads w).bind ?_ (by rintro e t ⟨he, -⟩; cases he)
  rintro now t ⟨-, rfl⟩
  simp only [meets_pure, then_ok, persist_parse_manifest, update, meets_write, any_step, true_and,
    meets_bind, meets_read]
  generalize ht : World.mk _ _ _ _ _ = t
  have hput : Manifested 1 w t job.job_id tenant_id (closed manifest now) := by
    rw [← ht]
    have hjob : (closed manifest now).job_id = job.job_id := hkey.1
    have htenant : (closed manifest now).tenant_id = tenant_id := hkey.2
    exact ⟨put_manifest_found hjob htenant, rfl⟩
  refine ((mark_document.spec job tenant_id "indexed" t).and
    (ends_leaving (leaves_mark_document job tenant_id "indexed") t)).post ?_
  rintro r t' ⟨⟨-, hdraws, -⟩, hsame⟩
  have hlater := hput.still (n := 0) ⟨hsame, hdraws⟩
  rcases r with e | document
  · exact ⟨now, hlater, by rintro document manifest' ⟨⟩⟩
  · simp only [then_ok, meets_pure]
    refine ⟨now, hlater, ?_⟩
    rintro document' manifest' ⟨⟩
    rw [← ht] at hput
    exact hput.found

/-! ## The calls of the service -/

def call_draws : MineruOutcome → Nat
  | .failed _ => 2
  | .completed _ => 3

def draws_of_calls (outcomes : List MineruOutcome) : Nat := (outcomes.map call_draws).sum

/-- Calls of the service left the job with a manifest that failed. -/
structure Called (draws : Nat) (w w' : World) (job_id tenant_id : String) : Prop where
  frame : Frame [.chunks] w w'
  draws : w'.draws = w.draws + draws
  failed : ∃ manifest, get_parse_manifest_for_tenant w'.store job_id tenant_id = some manifest ∧
    manifest.status = "failed"

theorem Called.trans {m n : Nat} {t t' : World} {job_id tenant_id : String}
    (h : Called m w t job_id tenant_id) (h' : Called n t t' job_id tenant_id) :
    Called (m + n) w t' job_id tenant_id :=
  ⟨h.frame.trans h'.frame, by rw [h'.draws, h.draws, Nat.add_assoc], h'.failed⟩

theorem persist_parse_manifest.spec (manifest : ParseManifest) (w : World) :
    Meets AnyStep (persist_parse_manifest manifest) w (fun r w' =>
      r = .ok () ∧ Frame [] w w' ∧ Manifested 0 w w' manifest.job_id manifest.tenant_id manifest) := by
  simp only [persist_parse_manifest, update, meets_write, any_step, true_and]
  exact ⟨⟨fun p _ => by cases p <;> rfl, Nat.le_refl _⟩, put_manifest_found rfl rfl, rfl⟩

theorem utcnow.quiet (w : World) :
    Meets AnyStep (utcnow env) w (fun r w' =>
      (∃ now, r = .ok now) ∧ Frame [] w w' ∧ Still 1 w w') := by
  refine (utcnow.reads w).post ?_
  rintro r t ⟨hr, rfl⟩
  exact ⟨⟨_, hr⟩, ⟨fun p _ => by cases p <;> rfl, Nat.le_succ _⟩, rfl, rfl⟩

theorem fail_manifest.called {manifest : ParseManifest} {job_id tenant_id : String}
    (hkey : manifest.job_id = job_id ∧ manifest.tenant_id = tenant_id) (error_code : String)
    (w : World) :
    Meets AnyStep (fail_manifest env manifest error_code) w (fun r w' =>
      r = .ok () ∧ Called 1 w w' job_id tenant_id) := by
  unfold fail_manifest
  refine (utcnow.quiet w).bind ?_ (by rintro e t ⟨⟨now, he⟩, -⟩; cases he)
  rintro now t ⟨-, hf, hstill⟩
  refine (persist_parse_manifest.spec _ t).post ?_
  rintro r t' ⟨rfl, hf', hput⟩
  have hfound := hput.found
  dsimp only at hfound
  rw [hkey.1, hkey.2] at hfound
  exact ⟨rfl, (hf.trans hf').mono (by simp), (hput.after hstill).draws, _, hfound, rfl⟩

theorem replace_some_chunks.still {document_id tenant_id : String} {document : Document}
    (hown : OwnDocument w document_id tenant_id document) (chunks : List PyDict) :
    Meets AnyStep (replace_some_chunks tenant_id document_id chunks) w (fun r w' =>
      r = .ok () ∧ Frame [.chunks] w w' ∧ Still 0 w w') := by
  unfold replace_some_chunks replace_chunks
  rw [meets_ite]
  refine ⟨fun _ => meets_pure.2 ⟨rfl, Frame.refl w, rfl, rfl⟩, fun _ => ?_⟩
  simp only [meets_bind, meets_read, then_ok, hown.found]
  rw [if_neg (not_not.2 hown.scope)]
  simp only [meets_bind, update, meets_write, then_ok, meets_pure, any_step, true_and]
  refine ⟨⟨fun p hp => ?_, Nat.le_refl _⟩, rfl, rfl⟩
  cases p <;> first | rfl | simp at hp

/-- With or without an error of its own, each call leaves a failed manifest. -/
theorem parse_and_persist.called {document_id tenant_id job_id : String} {document : Document}
    {manifest : ParseManifest} (hown : OwnDocument w document_id tenant_id document)
    (hfound : get_parse_manifest_for_tenant w.store job_id tenant_id = some manifest)
    (outcome : MineruOutcome) :
    Meets AnyStep (parse_and_persist env document_id tenant_id job_id outcome) w (fun r w' =>
      r = .ok () ∧ Called (call_draws outcome) w w' job_id tenant_id) := by
  have hkey := manifest_key hfound
  unfold parse_and_persist
  rw [meets_bind, meets_read, then_ok, hfound]
  dsimp only
  refine (utcnow.quiet w).bind ?_ (by rintro e t ⟨⟨now, he⟩, -⟩; cases he)
  rintro started_at t₁ ⟨-, hf₁, hstill₁⟩
  have hfails : ∀ error_code t, Meets AnyStep
      (fail_manifest env { manifest with status := "parsing", started_at := some started_at }
        error_code) t (fun r w' => r = .ok () ∧ Called 1 t w' job_id tenant_id) := by
    intro error_code t
    refine fail_manifest.called ?_ error_code t
    exact hkey
  refine (persist_parse_manifest.spec _ t₁).bind ?_ (by rintro e t ⟨he, -⟩; cases he)
  rintro _ t₂ ⟨-, hf₂, hput₂⟩
  have hf : Frame [.chunks] w t₂ := (hf₁.trans hf₂).mono (by simp)
  have hdraws : t₂.draws = w.draws + 1 := (hput₂.after hstill₁).draws
  cases outcome with
  | failed error_code =>
    refine (hfails error_code t₂).post ?_
    rintro r t ⟨rfl, hcalled⟩
    exact ⟨rfl, hf.trans hcalled.frame, by rw [hcalled.draws, hdraws]; rfl, hcalled.failed⟩
  | completed chunks =>
    have hown₂ := OwnDocument.frame hown hf (by simp)
    refine (replace_some_chunks.still hown₂ chunks).bind ?_ (by rintro e t ⟨he, -⟩; cases he)
    rintro _ t₃ ⟨-, hf₃, hstill₃⟩
    refine (utcnow.quiet t₃).bind ?_ (by rintro e t ⟨⟨now, he⟩, -⟩; cases he)
    rintro ended_at t₄ ⟨-, hf₄, hstill₄⟩
    refine (persist_parse_manifest.spec _ t₄).bind ?_ (by rintro e t ⟨he, -⟩; cases he)
    rintro _ t₅ ⟨-, hf₅, hput₅⟩
    have hf' : Frame [.chunks] t₂ t₅ := hf₃.trans ((hf₄.trans hf₅).mono (by simp))
    have hown₅ := OwnDocument.frame hown₂ hf' (by simp)
    have hdraws₅ : t₅.draws = t₂.draws + 1 := (hput₅.after (hstill₃.trans hstill₄)).draws
    -- the document is there, so `upsert` is called, and raises
    have hthere : (t₅.store.documents.get? document_id).filter (fun d => d.tenant_id = tenant_id) =
        some document := by
      rw [hown₅.found]
      simp [hown₅.scope]
    rw [meets_bind, meets_read, then_ok, hthere]
    refine (hfails "DOC_PARSE_UNKNOWN_ERROR" t₅).post ?_
    rintro r t ⟨rfl, hcalled⟩
    refine ⟨rfl, (hf.trans hf').trans hcalled.frame, ?_, hcalled.failed⟩
    rw [hcalled.draws, hdraws₅, hdraws]
    rfl

/-- Once the manifest has failed, later calls leave it so. -/
theorem calls.called {document_id tenant_id job_id : String} {document : Document}
    (outcomes : List MineruOutcome) {w : World} {manifest : ParseManifest}
    (hown : OwnDocument w document_id tenant_id document)
    (hfound : get_parse_manifest_for_tenant w.store job_id tenant_id = some manifest)
    (hfailed : outcomes ≠ [] ∨ manifest.status = "failed") :
    Meets AnyStep (outcomes.foldlM (fun _ outcome =>
      parse_and_persist env document_id tenant_id job_id outcome) ()) w (fun r w' =>
        r = .ok () ∧ Called (draws_of_calls outcomes) w w' job_id tenant_id) := by
  induction outcomes generalizing w manifest with
  | nil =>
    rw [List.foldlM_nil, meets_pure]
    exact ⟨rfl, Frame.refl w, rfl, manifest, hfound, hfailed.resolve_left (by simp)⟩
  | cons outcome rest ih =>
    rw [List.foldlM_cons]
    refine (parse_and_persist.called hown hfound outcome).bind ?_ (by rintro e t ⟨he, -⟩; cases he)
    rintro _ t ⟨-, hcalled⟩
    obtain ⟨manifest', hfound', hfailed'⟩ := hcalled.failed
    refine (ih (OwnDocument.frame hown hcalled.frame (by simp)) hfound' (.inr hfailed')).post ?_
    rintro r t' ⟨rfl, hrest⟩
    exact ⟨rfl, hcalled.trans hrest⟩

/-- When the service is called at all, the manifest has failed after it. -/
theorem try_mineru_official_api.called {document_id tenant_id : String} {document : Document}
    {manifest : ParseManifest} (hown : OwnDocument w document_id tenant_id document)
    (hfound : get_parse_manifest_for_tenant w.store manifest.job_id tenant_id = some manifest)
    (hcalls : env.mineru w.draws ≠ []) :
    Meets AnyStep (try_mineru_official_api env document_id tenant_id (some manifest)) w (fun r w' =>
      r = .ok () ∧ Called (1 + draws_of_calls (env.mineru w.draws)) w w' manifest.job_id tenant_id) := by
  unfold try_mineru_official_api
  refine (draw.reads w).bind ?_ (by rintro e t ⟨he, -⟩; cases he)
  rintro n t ⟨hn, rfl⟩
  cases hn
  have hown' : OwnDocument { w with draws := w.draws + 1 } document_id tenant_id document :=
    ⟨hown.found, hown.scope⟩
  refine (calls.called (env.mineru w.draws) hown' hfound (.inl hcalls)).post ?_
  rintro r t ⟨rfl, hcalled⟩
  have hframe : Frame [.chunks] w { w with draws := w.draws + 1 } :=
    ⟨fun p _ => by cases p <;> rfl, Nat.le_succ _⟩
  exact ⟨rfl, hframe.trans hcalled.frame, by rw [hcalled.draws]; exact Nat.add_assoc _ _ _,
    hcalled.failed⟩

/-! ## The parsers after the service -/

/-- The chunk of the first adapter that gives one. -/
def adapter_chunk (env : Env) : Nat → List String → Option PyDict
  | _, [] => none
  | n, parser_name :: rest =>
    match env.adapter parser_name with
    | none => adapter_chunk env n rest
    | some parse =>
      match parse n with
      | .ok chunk => some chunk
      | .error (.api _) => adapter_chunk env (n + 1) rest
      | .error _ => none

/-- What the parsers of the store answer from draw `n` on. -/
def fallback_chunks (env : Env) (document : Document) (manifest : ParseManifest) (n : Nat) :
    Option (List PyDict) :=
  match local_chunks env document.document_id (local_raw_chunks env document n) with
  | some chunks => some chunks
  | none => do
    let chunk ← adapter_chunk env (n + 1) ((manifest.parser_selected :: manifest.fallback_chain).take 3)
    let normalized_chunk ← (ensure_chunk_shape env document.document_id chunk).toOption
    pure [normalized_chunk]

theorem parse_candidates.spec (attempts : Nat) (names : List String) (last_error : Option String)
    (w : World) :
    Meets AnyStep (parse_candidates env attempts last_error names) w (fun r _ =>
      r.toOption = adapter_chunk env w.draws names) := by
  induction names generalizing last_error w with
  | nil =>
    unfold parse_candidates fallback_exhausted raise_api
    exact meets_raise.2 rfl
  | cons name rest ih =>
    unfold parse_candidates adapter_chunk
    rcases env.adapter name with _ | parse
    · exact ih last_error w
    · refine (draw.reads w).bind ?_ (by rintro e t ⟨he, -⟩; cases he)
      rintro n t ⟨hn, rfl⟩
      cases hn
      dsimp only
      rcases parse w.draws with e | chunk
      · cases e with
        | api e => exact ih (some e.code) _
        | _ => exact meets_raise.2 rfl
      · exact meets_pure.2 rfl

theorem parse_by_route.gives (document_id : String) (manifest : ParseManifest) (w : World) :
    Meets AnyStep (parse_by_route env document_id (some manifest)) w (fun r _ =>
      r.toOption = do
        let chunk ← adapter_chunk env w.draws
          ((manifest.parser_selected :: manifest.fallback_chain).take 3)
        let normalized_chunk ← (ensure_chunk_shape env document_id chunk).toOption
        pure [normalized_chunk]) := by
  unfold parse_by_route route_of
  dsimp only
  refine (parse_candidates.spec _ _ none w).bind ?_ ?_
  · intro chunk t hchunk
    rw [← hchunk, meets_bind, meets_lift]
    rcases hshape : ensure_chunk_shape env document_id chunk with e | normalized_chunk
    · rw [then_error, Except.toOption, Option.bind_eq_bind, Option.bind_some, hshape]
      rfl
    · have hgiven : (do
          let chunk ← (Except.ok chunk : Except PyErr PyDict).toOption
          let normalized_chunk ← (ensure_chunk_shape env document_id chunk).toOption
          pure [normalized_chunk]) = some [normalized_chunk] := by
        rw [Except.toOption, Option.bind_eq_bind, Option.bind_some, hshape]
        rfl
      rw [hgiven]
      simp only [then_ok, meets_ite, meets_bind, update, meets_write, meets_pure, any_step, true_and]
      exact ⟨fun _ => rfl, fun _ => rfl⟩
  · intro e t he
    rw [← he]
    rfl

/-- The parser gives what the parsers after the service give. -/
theorem parse_document_file.gives {document : Document} {tenant_id : String}
    {manifest : ParseManifest} (hown : OwnDocument w document.document_id tenant_id document)
    (hfound : get_parse_manifest_for_tenant w.store manifest.job_id tenant_id = some manifest)
    (hcalls : env.mineru w.draws ≠ []) :
    Meets AnyStep (parse_document_file env document tenant_id (some manifest)) w (fun r w' =>
      r.toOption = fallback_chunks env document manifest
        (w.draws + (1 + draws_of_calls (env.mineru w.draws))) ∧
      ∃ failed, get_parse_manifest_for_tenant w'.store manifest.job_id tenant_id = some failed ∧
        failed.status = "failed") := by
  unfold parse_document_file
  refine (try_mineru_official_api.called hown hfound hcalls).bind ?_ (by rintro e t ⟨he, -⟩; cases he)
  rintro _ t ⟨-, hcalled⟩
  obtain ⟨failed, hfailed, hstatus⟩ := hcalled.failed
  refine (draw.reads t).bind ?_ (by rintro e t ⟨he, -⟩; cases he)
  rintro n t' ⟨hn, rfl⟩
  cases hn
  rw [hcalled.draws]
  unfold fallback_chunks
  rcases local_chunks env document.document_id _ with _ | chunks
  · refine ((parse_by_route.gives _ _ _).and (ends_leaving (leaves_parse_by_route env _ _) _)).post ?_
    rintro r t' ⟨hr, hsame⟩
    exact ⟨hr, failed, (same_manifest hsame _ _).trans hfailed, hstatus⟩
  · exact meets_pure.2 ⟨rfl, failed, hfailed, hstatus⟩

/-! ## What the document gets -/

/-- The words of a parse that went well, of the store and of the service. -/
def success_statuses : List String := ["succeeded", "completed"]

/-- The manifest of the job tells of success, and the document has these chunks. -/
def Landed (w' : World) (job_id tenant_id document_id : String) (chunks : List PyDict) : Prop :=
  (∃ manifest, get_parse_manifest_for_tenant w'.store job_id tenant_id = some manifest ∧
    manifest.status ∈ success_statuses) ∧ chunksOf w' document_id = chunks

/-- The parsers after the service give these chunks, but for duplicates. -/
def FallbackGives (env : Env) (document : Document) (manifest : ParseManifest) (n : Nat)
    (chunks : List PyDict) : Prop :=
  ∃ parsed, fallback_chunks env document manifest n = some parsed ∧
    dedupe_chunks env document.document_id [] parsed = .ok chunks

theorem Landed.moved {t : World} {job_id tenant_id document_id : String} {chunks : List PyDict}
    (hsame : SameManifests t w') (hchunks : chunksOf w' document_id = chunksOf t document_id) :
    Landed w' job_id tenant_id document_id chunks ↔ Landed t job_id tenant_id document_id chunks := by
  unfold Landed
  rw [same_manifest hsame, hchunks]

theorem persist_document_chunks.dedupes {document : Document} {tenant_id : String}
    (hown : OwnDocument w document.document_id tenant_id document) (parsed : List PyDict) :
    Meets AnyStep (persist_document_chunks env tenant_id document.document_id parsed) w
      (fun r _ => r = dedupe_chunks env document.document_id [] parsed) := by
  unfold persist_document_chunks replace_chunks
  rw [meets_bind, meets_lift]
  rcases dedupe_chunks env document.document_id [] parsed with e | out
  · exact rfl
  · simp only [then_ok, meets_bind, meets_read, hown.found]
    rw [if_neg (not_not.2 hown.scope)]
    simp only [meets_bind, update, meets_write, then_ok, meets_pure, any_step, true_and]

/-- The parser runs, and what it gives is stored. -/
theorem index_document.lands {document : Document} {tenant_id : String} {manifest : ParseManifest}
    (hown : OwnDocument w document.document_id tenant_id document)
    (hfound : get_parse_manifest_for_tenant w.store manifest.job_id tenant_id = some manifest)
    (hstatus : manifest.status = "succeeded") (hcalls : env.mineru w.draws ≠ []) :
    Meets AnyStep (index_document env document tenant_id (some manifest)) w (fun _ w' =>
      ∀ chunks, Landed w' manifest.job_id tenant_id document.document_id chunks ↔
        FallbackGives env document manifest
          (w.draws + (1 + draws_of_calls (env.mineru w.draws))) chunks) := by
  have hkey := manifest_key hfound
  unfold index_document
  refine ((parse_document_file.spec document tenant_id (some manifest) w).and
    (parse_document_file.gives hown hfound hcalls)).bind ?_ ?_
  · rintro parsed t ⟨⟨hf, husable⟩, hgives, -⟩
    have hown₁ := OwnDocument.frame hown hf (by simp)
    refine ((persist_document_chunks.spec hown₁ (husable parsed rfl)).and
      (persist_document_chunks.dedupes hown₁ parsed)).bind ?_
      (by rintro e t' ⟨⟨chunks, he, -⟩, -⟩; cases he)
    rintro out t₁ ⟨⟨_, ⟨⟩, -, hstored, -⟩, hout⟩
    unfold persist_counted
    refine (persist_parse_manifest.spec _ t₁).bind ?_ (by rintro e t' ⟨he, -⟩; cases he)
    rintro _ t₂ ⟨-, hf₂, hput⟩
    have hlanded : ∀ chunks, Landed t₂ manifest.job_id tenant_id document.document_id chunks ↔
        FallbackGives env document manifest
          (w.draws + (1 + draws_of_calls (env.mineru w.draws))) chunks := by
      intro chunks
      have hkept : chunksOf t₂ document.document_id = out :=
        (chunksOf_frame hf₂ (by simp) _).trans hstored
      constructor
      · rintro ⟨-, hchunks⟩
        exact ⟨parsed, hgives.symm, hchunks ▸ hkept.symm ▸ hout.symm⟩
      · rintro ⟨parsed', hparsed, hchunks⟩
        rw [← hgives] at hparsed
        cases hparsed
        rw [← hout] at hchunks
        cases hchunks
        have hcounted := hput.found
        unfold count_chunks at hcounted
        dsimp only at hcounted
        rw [hkey.2] at hcounted
        refine ⟨⟨_, hcounted, ?_⟩, hkept⟩
        rw [hstatus]
        exact List.mem_cons_self
    have hleaves : LeavesManifests (register_chunks env document tenant_id out >>= fun _ =>
        maybe_index_chunks_to_lightrag env tenant_id document.project_id document.document_id out) :=
      keeps_bind (leaves_register_chunks env _ _ _) fun _ => leaves_index env _ _ _ _
    have htouches : Touches [.index] (register_chunks env document tenant_id out >>= fun _ =>
        maybe_index_chunks_to_lightrag env tenant_id document.project_id document.document_id out) :=
      keeps_bind (touches_register_chunks env _ _ _) fun _ => touches_index env (by simp) _ _ _ _
    refine ((ends_leaving hleaves t₂).and (ends_touches htouches t₂)).post ?_
    intro r t' h chunks
    exact (Landed.moved h.1 (chunksOf_frame h.2 (by simp) _)).trans (hlanded chunks)
  · rintro e t ⟨-, hgives, failed, hfailed, hword⟩ chunks
    refine iff_of_false ?_ ?_
    · rintro ⟨⟨manifest', hmanifest', hsuccess⟩, -⟩
      rw [hfailed] at hmanifest'
      cases hmanifest'
      rw [hword] at hsuccess
      simp [success_statuses] at hsuccess
    · rintro ⟨parsed, hparsed, -⟩
      rw [← hgives] at hparsed
      cases hparsed

/-- The draw at which the service is called in a parse job. -/
def service_draw (w : World) (job : Job) (manifest : ParseManifest) : Nat :=
  w.draws + (begin_draws job + start_draws manifest) + 1

/-- The draw at which the parsers after it start. -/
def fallback_draw (env : Env) (w : World) (job : Job) (manifest : ParseManifest) : Nat :=
  service_draw w job manifest +
    (1 + draws_of_calls (env.mineru (service_draw w job manifest)))

/-- The parsers do not look at what the end of the job wrote. -/
theorem fallback_marked {found : Document} {manifest : ParseManifest} {status : String} {now : Int}
    {n : Nat} {chunks : List PyDict} :
    FallbackGives env { found with status := status } (closed manifest now) n chunks ↔
      FallbackGives env found manifest n chunks := by
  unfold FallbackGives fallback_chunks local_raw_chunks closed
  exact Iff.rfl

/-- A parse job that has moved to its end parses a document without chunks. -/
theorem index_parsed.lands {job : Job} {tenant_id : String} {found : Document}
    {manifest : ParseManifest} (hown : OwnDocument w job.resource_id tenant_id found)
    (hfresh : chunksOf w job.resource_id = [])
    (hfound : get_parse_manifest_for_tenant w.store job.job_id tenant_id = some manifest)
    (hcalls : env.mineru (w.draws + 1) ≠ []) :
    Meets AnyStep (index_parsed env job tenant_id) w (fun _ w' =>
      ∀ chunks, Landed w' job.job_id tenant_id job.resource_id chunks ↔
        FallbackGives env found manifest
          (w.draws + 1 + (1 + draws_of_calls (env.mineru (w.draws + 1)))) chunks) := by
  have hid : found.document_id = job.resource_id := Table.key_of_get? _ hown.found
  unfold index_parsed
  refine ((mark_parsed.spec job tenant_id w).and (mark_parsed.manifested hfound)).bind ?_ ?_
  · rintro ⟨document, manifest'⟩ t ⟨⟨-, hchunks, hmarked, howns, -⟩, now, hclosed, hgets⟩
    obtain ⟨manifest'', hsome⟩ := howns found hown
    cases hsome
    cases hgets _ _ rfl
    have hown' : OwnDocument t ({ found with status := "indexed" } : Document).document_id tenant_id
        { found with status := "indexed" } := by
      unfold Marked at hmarked
      rw [hown.found, Option.map_some, remark, if_pos hown.scope, ← hid] at hmarked
      exact ⟨hmarked, hown.scope⟩
    dsimp only
    refine (list_chunks.spec hown').bind ?_ (by rintro e t' ⟨he, -⟩; cases he)
    rintro _ t' ⟨⟨⟩, rfl⟩
    rw [show chunksOf t' ({ found with status := "indexed" } : Document).document_id = [] by
      rw [hid, hchunks, hfresh], if_pos rfl]
    have hkey := (manifest_key hfound).1
    have hstored : get_parse_manifest_for_tenant t'.store (closed manifest now).job_id tenant_id =
        some (closed manifest now) := by
      rw [show (closed manifest now).job_id = job.job_id from hkey]
      exact hclosed.found
    refine (index_document.lands hown' hstored rfl ?_).post ?_
    · rw [hclosed.draws]
      exact hcalls
    · intro r t'' h chunks
      have hlands := h chunks
      rw [hclosed.draws, fallback_marked, show (closed manifest now).job_id = job.job_id from hkey,
        show ({ found with status := "indexed" } : Document).document_id = job.resource_id from hid]
        at hlands
      exact hlands
  · rintro e t ⟨⟨-, -, -, howns, -⟩, -⟩
    obtain ⟨manifest', hsome⟩ := howns found hown
    cases hsome

theorem succeed_parse_job.lands {job : Job} {tenant_id : String} {found : Document}
    {manifest : ParseManifest} (hv : Visible w job (some tenant_id))
    (hrunning : job.status = .running) (htype : job.job_type = .parse)
    (hown : OwnDocument w job.resource_id tenant_id found)
    (hfresh : chunksOf w job.resource_id = [])
    (hfound : get_parse_manifest_for_tenant w.store job.job_id tenant_id = some manifest)
    (hcalls : env.mineru (w.draws + 1) ≠ []) :
    Meets AnyStep (succeed_job env job tenant_id) w (fun _ w' =>
      ∀ chunks, Landed w' job.job_id tenant_id job.resource_id chunks ↔
        FallbackGives env found manifest
          (w.draws + 1 + (1 + draws_of_calls (env.mineru (w.draws + 1)))) chunks) := by
  have hmove : Meets (Step env anyJob) (move_to_succeeded env job tenant_id) w _ :=
    move_to_succeeded.spec any_free hv hrunning
  unfold succeed_job succeed_parse
  refine ((meets_any hmove).and (move_to_succeeded.still job tenant_id w)).bind ?_
    (by rintro e t ⟨⟨job', he, -⟩, -⟩; cases he)
  rintro job₁ t₁ ⟨⟨_, ⟨⟩, hb, -⟩, hstill⟩
  rw [if_pos htype]
  have hdraws : t₁.draws = w.draws := hstill.draws
  have hown₁ := OwnDocument.frame hown hb.frame (by simp)
  have hfresh₁ := (chunksOf_frame hb.frame (by simp) job.resource_id).trans hfresh
  have hfound₁ := (same_manifest hstill.manifests job.job_id tenant_id).trans hfound
  rw [← hdraws] at hcalls ⊢
  refine (index_parsed.lands hown₁ hfresh₁ hfound₁ hcalls).bind ?_ (fun e t h => h)
  intro _ t₂ hlands
  refine ((ends_leaving (leaves_checkpoint env _ _ _ _ _ _) t₂).and
    (ends_touches (K := []) (touches_checkpoint env _ _ _ _ _ _) t₂)).bind ?_ ?_
  · rintro _ t₃ ⟨hsame, hf⟩
    rw [meets_pure]
    exact fun chunks => (Landed.moved hsame (chunksOf_frame hf (by simp) _)).trans (hlands chunks)
  · rintro e t₃ ⟨hsame, hf⟩
    exact fun chunks => (Landed.moved hsame (chunksOf_frame hf (by simp) _)).trans (hlands chunks)

/-- The run of a parse job in which the service is called. -/
theorem parse_run.lands {job : Job} {tenant_id : String} {flags : RunFlags} {found : Document}
    {manifest : ParseManifest} (hv : Visible w job (some tenant_id))
    (hstart : Startable job.status) (htype : job.job_type = .parse) (hflags : ¬ ToldToFail flags)
    (hown : OwnDocument w job.resource_id tenant_id found)
    (hfresh : chunksOf w job.resource_id = [])
    (hfound : get_parse_manifest_for_tenant w.store job.job_id tenant_id = some manifest)
    (hcalls : env.mineru (service_draw w job manifest) ≠ []) :
    Meets AnyStep (run_job_once env job.job_id tenant_id flags) w (fun _ w' =>
      ∀ chunks, Landed w' job.job_id tenant_id job.resource_id chunks ↔
        FallbackGives env found manifest (fallback_draw env w job manifest) chunks) := by
  have hbegin : Meets (Step env anyJob) (begin_run env job.job_id tenant_id) w _ :=
    begin_run.spec any_free w job.job_id tenant_id
  unfold run_job_once
  refine saved.spec (((meets_any hbegin).and (begin_run.manifested hv htype hfound)).bind ?_ ?_) ?_
  · rintro job' t ⟨⟨hf, found', hid, hfv, -, hb, hrunning, -⟩, now, hbegun⟩
    cases hv.stored.unique hfv.stored hid
    have hrun : run_started env job' tenant_id flags = succeed_job env job' tenant_id := by
      rw [ToldToFail, not_or] at hflags
      unfold run_started run_by_type
      rw [if_neg hflags.1, if_neg hflags.2, hb.same.job_type, htype]
    rw [hrun]
    have hresource := hb.same.resource_id
    have hown' : OwnDocument t job'.resource_id tenant_id found :=
      hresource ▸ OwnDocument.frame hown hf (by simp)
    have hfresh' : chunksOf t job'.resource_id = [] := by
      rw [hresource, chunksOf_frame hf (by simp), hfresh]
    have hfound' : get_parse_manifest_for_tenant t.store job'.job_id tenant_id =
        some (begun manifest now) := by
      rw [hb.same.job_id]
      exact hbegun.found
    have hdraw : t.draws + 1 = service_draw w job manifest := by
      rw [hbegun.draws]
      rfl
    refine (succeed_parse_job.lands (hb.visible hv) hrunning (hb.same.job_type.trans htype) hown'
      hfresh' hfound' (hdraw ▸ hcalls)).post ?_
    intro r w' hlands chunks
    have h := hlands chunks
    rw [hb.same.job_id, hresource, hdraw] at h
    exact h
  · rintro e t ⟨⟨-, hno⟩, -⟩
    exact absurd hstart ((hno job rfl hv.stored).2 hv)
  · intro result t t' hlands hstore hdraws chunks
    refine (Landed.moved ?_ ?_).trans (hlands chunks)
    · exact congrArg Store.parse_manifests hstore
    · unfold chunksOf
      rw [hstore]

/-! ## The law -/

/-- The run of this job parses a document that has no chunks yet. -/
structure ParsesNow (w : World) (job : Job) (tenant_id : String) (flags : RunFlags)
    (found : Document) (manifest : ParseManifest) : Prop where
  visible : Visible w job (some tenant_id)
  startable : Startable job.status
  job_type : job.job_type = .parse
  not_told : ¬ ToldToFail flags
  own : OwnDocument w job.resource_id tenant_id found
  fresh : chunksOf w job.resource_id = []
  manifest : get_parse_manifest_for_tenant w.store job.job_id tenant_id = some manifest

/-- What the store tells the service. -/
def result_of (found : Document) (manifest : ParseManifest) : ResultOf :=
  ⟨found.document_id, manifest.tenant_id, manifest.parser_selected, manifest.parser_version⟩

/-- The result of a call of the service reaches the document exactly when the
parsers after it give the same chunks. -/
theorem mineru_result_lands_iff (env : Env) (sha256 : String → String) (w : World) (job : Job)
    (tenant_id : String) (flags : RunFlags) (found : Document) (manifest : ParseManifest)
    (content_list : List MineruContentItem)
    (hjob : ParsesNow w job tenant_id flags found manifest)
    (hparsed : .completed (content_list_to_chunks env sha256 (result_of found manifest) content_list) ∈
      env.mineru (service_draw w job manifest)) :
    ∃ chunks, dedupe_chunks env found.document_id []
        (content_list_to_chunks env sha256 (result_of found manifest) content_list) = .ok chunks ∧
      (Landed ((run_job_once env job.job_id tenant_id flags).final w) job.job_id tenant_id
          job.resource_id chunks ↔
        FallbackGives env found manifest (fallback_draw env w job manifest) chunks) := by
  obtain ⟨chunks, hchunks⟩ := chunks_dedupe env sha256 (result_of found manifest) content_list
  have hrun := (parse_run.lands hjob.visible hjob.startable hjob.job_type hjob.not_told hjob.own
    hjob.fresh hjob.manifest (List.ne_nil_of_mem hparsed)).2
  exact ⟨chunks, hchunks, hrun chunks⟩

def page_item : MineruContentItem := ⟨"text", "text", 0, [], none, none, none⟩

def page_chunks : List PyDict :=
  content_list_to_chunks calm_env (fun _ => "hash") ⟨"doc_", "tenant", "mineru", "v0"⟩ [page_item]

/-- The service reads a page. The local parser reads the same, or not. -/
def mineru_env (same : Bool) : Env :=
  { calm_env with
    mineru := fun _ => [.completed page_chunks]
    local_parse := fun _ => if same then page_chunks else [[("text", .str "chunk")]] }

theorem uploaded_parses (same : Bool) :
    ∃ job found manifest, job.job_id = "job_aa" ∧ job.resource_id = "doc_" ∧
      result_of found manifest = ⟨"doc_", "tenant", "mineru", "v0"⟩ ∧
      found.storage_uri.isSome = true ∧
      ParsesNow (uploaded (mineru_env same)) job "tenant" RunFlags.default found manifest := by
  have hjob : ((uploaded (mineru_env same)).store.jobs.get? "job_aa").map
      (fun job => (job.job_type, job.resource_id, job.status, job.tenant_id)) =
        some (.parse, "doc_", .queued, "tenant") := by cases same <;> decide +kernel
  have hmanifest : ((uploaded (mineru_env same)).store.parse_manifests.get? "job_aa").map
      (fun m => (m.tenant_id, m.parser_selected, m.parser_version)) =
        some ("tenant", "mineru", "v0") := by cases same <;> decide +kernel
  have hdocument : ((uploaded (mineru_env same)).store.documents.get? "doc_").map
      (fun document => (document.tenant_id, document.storage_uri.isSome)) = some ("tenant", true) := by
    cases same <;> decide +kernel
  have hfresh : (chunksOf (uploaded (mineru_env same)) "doc_").length = 0 := by
    cases same <;> decide +kernel
  obtain ⟨job, hfound, hfields⟩ := Option.map_eq_some_iff.1 hjob
  obtain ⟨manifest, hmfound, hmfields⟩ := Option.map_eq_some_iff.1 hmanifest
  obtain ⟨document, hdfound, hdfields⟩ := Option.map_eq_some_iff.1 hdocument
  simp only [Prod.mk.injEq] at hfields hmfields hdfields
  obtain ⟨htype, hresource, hqueued, htenant⟩ := hfields
  obtain ⟨hmtenant, hselected, hversion⟩ := hmfields
  obtain ⟨hdtenant, hfile⟩ := hdfields
  have hid : job.job_id = "job_aa" := Table.key_of_get? _ hfound
  have hdid : document.document_id = "doc_" := Table.key_of_get? _ hdfound
  refine ⟨job, document, manifest, hid, hresource, ?_, hfile, ⟨?_, ?_⟩, .inl ?_, htype, ?_, ?_, ?_,
    ?_⟩
  · unfold result_of
    rw [hdid, hmtenant, hselected, hversion]
  · unfold Stored
    rw [hid]
    exact hfound
  · rintro tenant ⟨⟩
    exact htenant
  · rw [hqueued]
    rfl
  · rintro (h | h) <;> cases h
  · rw [hresource]
    exact ⟨hdfound, hdtenant⟩
  · rw [hresource]
    exact List.length_eq_zero_iff.1 hfresh
  · unfold get_parse_manifest_for_tenant
    rw [hid, hmfound]
    simp [hmtenant]

/-- What a chunk says of where it is from. -/
def source_words (chunks : List PyDict) : List String :=
  chunks.map fun chunk => (chunk.get "content_source").toStr calm_env.repr

/-- The local parser reads the same page: the manifest and the chunks are
those of the service. -/
theorem same_page_lands : ∃ chunks,
    dedupe_chunks (mineru_env true) "doc_" [] page_chunks = .ok chunks ∧
      Landed ((run_job_once (mineru_env true) "job_aa" "tenant" RunFlags.default).final
        (uploaded (mineru_env true))) "job_aa" "tenant" "doc_" chunks := by
  obtain ⟨job, found, manifest, hid, hresource, hresult, hfile, hjob⟩ := uploaded_parses true
  have hdid : found.document_id = "doc_" := congrArg ResultOf.document_id hresult
  have hagree : (local_chunks (mineru_env true) "doc_" page_chunks).map
      (dedupe_chunks (mineru_env true) "doc_" []) =
        some (dedupe_chunks (mineru_env true) "doc_" [] page_chunks) := rfl
  obtain ⟨parsed, hparsed, hsame⟩ := Option.map_eq_some_iff.1 hagree
  obtain ⟨chunks, hchunks, hlands⟩ := mineru_result_lands_iff (mineru_env true) (fun _ => "hash")
    _ job "tenant" _ found manifest [page_item] hjob (by
      rw [hresult]
      exact List.mem_cons_self)
  rw [hresult, hdid] at hchunks
  rw [hid, hresource] at hlands
  refine ⟨chunks, hchunks, hlands.2 ⟨parsed, ?_, ?_⟩⟩
  · unfold fallback_chunks local_raw_chunks
    rw [if_pos hfile, hdid]
    rw [show (mineru_env true).local_parse _ = page_chunks from rfl, hparsed]
  · rw [hdid, hsame]
    exact hchunks

/-- The local parser reads something else: its chunk is what the document
gets, and the manifest tells of success. -/
theorem other_page_is_kept : ∃ job found manifest,
    ParsesNow (uploaded (mineru_env false)) job "tenant" RunFlags.default found manifest ∧
    .completed (content_list_to_chunks (mineru_env false) (fun _ => "hash")
      (result_of found manifest) [page_item]) ∈
        (mineru_env false).mineru (service_draw (uploaded (mineru_env false)) job manifest) ∧
    ∀ chunks, dedupe_chunks (mineru_env false) found.document_id []
        (content_list_to_chunks (mineru_env false) (fun _ => "hash") (result_of found manifest)
          [page_item]) = .ok chunks →
      ¬ Landed ((run_job_once (mineru_env false) job.job_id "tenant" RunFlags.default).final
        (uploaded (mineru_env false))) job.job_id "tenant" job.resource_id chunks := by
  obtain ⟨job, found, manifest, hid, hresource, hresult, -, hjob⟩ := uploaded_parses false
  have hdid : found.document_id = "doc_" := congrArg ResultOf.document_id hresult
  have hpage : (dedupe_chunks (mineru_env false) "doc_" [] page_chunks).toOption.map source_words =
      some ["mineru_official_api"] := by decide +kernel
  have hstored : source_words (chunksOf ((run_job_once (mineru_env false) "job_aa" "tenant"
      RunFlags.default).final (uploaded (mineru_env false))) "doc_") = ["unknown"] := by
    decide +kernel
  refine ⟨job, found, manifest, hjob, ?_, fun chunks hchunks hlanded => ?_⟩
  · rw [hresult]
    exact List.mem_cons_self
  · rw [hid, hresource] at hlanded
    rw [hresult, hdid] at hchunks
    have hwords : source_words chunks = ["mineru_official_api"] := by
      have hsome := hpage
      rw [show dedupe_chunks (mineru_env false) "doc_" [] page_chunks = .ok chunks from hchunks]
        at hsome
      exact Option.some.inj hsome
    rw [← hlanded.2, hstored] at hwords
    exact absurd hwords (by decide)

end bid_evaluation.mineru_laws
