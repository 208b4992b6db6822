-- What a run leaves behind. Only the end of a program counts here, not the
-- writes on the way, so nothing has to be known about the names that it
-- draws.
import BidEvaluation.OpSteps
import BidEvaluation.JobLaws

open dict_lib stepwise bid_evaluation.values bid_evaluation.core bid_evaluation.store_ops
  bid_evaluation.store_admin bid_evaluation.job_run bid_evaluation.operations
  bid_evaluation.frames bid_evaluation.job_steps bid_evaluation.run_steps
  bid_evaluation.op_steps bid_evaluation.job_laws

namespace bid_evaluation.endings

variable {env : Env} {w w' : World}

/-! ## How a program ends -/

/-- Only the end of a program counts here, not the writes on the way. -/
def AnyStep {σ : Type} (_ _ : σ) : Prop := True

@[simp] theorem any_step {σ : Type} (s t : σ) : AnyStep s t := trivial

theorem meets_any {R : World → World → Prop} {m : Act α} {Q : Except PyErr α → World → Prop}
    (h : Meets R m w Q) : Meets AnyStep m w Q := ⟨keeps_true m w, h.2⟩

theorem ends_touches {K : List Part} {m : Act α} (h : Touches K m) (w : World) :
    Meets AnyStep m w (fun _ w' => Frame K w w') := ⟨keeps_true m w, h.frame w⟩

/-- Go past a program that changes only the parts of `K`. -/
theorem past_parts {K : List Part} {m : Act α} {f : α → Act β}
    {Q : Except PyErr β → World → Prop} (h : Touches K m)
    (hok : ∀ a t, Frame K w t → Meets AnyStep (f a) t Q)
    (herror : ∀ e t, Frame K w t → Q (.error e) t) : Meets AnyStep (m >>= f) w Q :=
  (ends_touches h w).bind hok herror

/-- The same for a program that always returns. -/
theorem past_return {K : List Part} {m : Act α} {f : α → Act β}
    {Q : Except PyErr β → World → Prop} (h : Touches K m) (hr : Returns m)
    (hok : ∀ a t, Frame K w t → Meets AnyStep (f a) t Q) : Meets AnyStep (m >>= f) w Q := by
  refine ((ends_touches h w).and ⟨keeps_true m w, hr w⟩ :
    Meets AnyStep m w (fun r t => Frame K w t ∧ ∃ a, r = .ok a)).bind
      (fun a t ht => hok a t ht.1) ?_
  rintro e t ⟨-, a, ha⟩
  cases ha

/-- The saved program ends as the program does, but for the disk. -/
theorem any_saving {m : Act α} {Q : Except PyErr α → World → Prop} (h : Meets AnyStep m w Q)
    (hQ : ∀ a t t', Q (.ok a) t → Frame [] t t' → Q (.ok a) t') :
    Meets AnyStep (saving env m) w Q := by
  refine h.bind (fun a t ha => ?_) (fun e t he => he)
  have hsave : Meets (Step env noQueued) (save_state env) t _ := save_state.spec t
  refine (meets_any hsave).bind (fun _ t' hf => ?_) (fun e t' he => by cases he.1)
  rw [meets_pure]
  exact hQ a t t' ha hf.2

/-! ## The small programs -/

theorem draw.reads (w : World) :
    Meets AnyStep draw w (fun r t => r = .ok w.draws ∧ t = { w with draws := w.draws + 1 }) := by
  simp only [draw, meets_bind, meets_read, meets_write, then_ok, meets_pure, any_step, and_self]

theorem uuid4.reads (w : World) :
    Meets AnyStep (uuid4_hex12 env) w (fun r t => (∃ hex, r = .ok hex) ∧
      t = { w with draws := w.draws + 1 }) := by
  unfold uuid4_hex12
  refine (draw.reads w).bind ?_ (by rintro e t ⟨he, -⟩; cases he)
  rintro n t ⟨-, rfl⟩
  rw [meets_pure]
  exact ⟨⟨_, rfl⟩, rfl⟩

theorem utcnow.reads (w : World) :
    Meets AnyStep (utcnow env) w (fun r t => r = .ok (env.clock w.draws) ∧
      t = { w with draws := w.draws + 1 }) := by
  simp only [utcnow, draw, meets_bind, meets_read, meets_write, then_ok, meets_pure, any_step,
    and_self]

theorem save_state.keeps (w : World) :
    Meets AnyStep (save_state env) w (fun r t => (∃ u, r = .ok u) ∧ t.store = w.store ∧
      t.draws = w.draws) := by
  unfold save_state
  rw [meets_ite]
  constructor
  · intro _
    rw [meets_write]
    exact ⟨trivial, ⟨(), rfl⟩, rfl, rfl⟩
  · intro _
    rw [meets_pure]
    exact ⟨⟨(), rfl⟩, rfl, rfl⟩

/-- A saved operation ends as the operation does, in the store and in what it
has drawn. -/
theorem saved.spec {m : Act α} {Q : Except PyErr α → World → Prop} (h : Meets AnyStep m w Q)
    (hQ : ∀ a t t', Q (.ok a) t → t'.store = t.store → t'.draws = t.draws → Q (.ok a) t') :
    Meets AnyStep (saving env m) w Q := by
  unfold saving
  refine h.bind ?_ (fun e t he => he)
  intro a t ha
  refine (save_state.keeps t).bind ?_ ?_
  · intro u t' hsave
    rw [meets_pure]
    exact hQ a t t' ha hsave.2.1 hsave.2.2
  · rintro e t' ⟨⟨u, hu⟩, -⟩
    cases hu

/-! ## A run that does not start -/

/-- A job that the tenant may not see, or that cannot start, is not run: the
call raises, and the job keeps its status. -/
theorem not_started_run.spec {job : Job} {tenant_id : String} (env : Env) (flags : RunFlags)
    (hstored : Stored w job) (hno : ¬ (Visible w job (some tenant_id) ∧ Startable job.status)) :
    Meets AnyStep (run_job_once env job.job_id tenant_id flags) w (fun r w' =>
      (∃ e, r = .error e) ∧ ∃ job', Became [.jobs] w w' job job' ∧ job'.status = job.status) := by
  have hspec : Meets (Step env anyJob) (begin_run env job.job_id tenant_id) w _ :=
    begin_run.spec any_free w job.job_id tenant_id
  unfold run_job_once
  refine any_saving ((meets_any hspec).bind ?_ ?_) ?_
  · rintro job' t ⟨-, found, hid, hv, hstart, -⟩
    cases hstored.unique hv.stored hid
    exact absurd ⟨hv, hstart⟩ hno
  · rintro e t ⟨-, hjob⟩
    exact ⟨⟨e, rfl⟩, (hjob job rfl hstored).1⟩
  · rintro result t t' ⟨⟨e, he⟩, -⟩
    cases he

/-! ## The document of a parse job -/

def chunksOf (w : World) (document_id : String) : List PyDict :=
  (w.store.document_chunks.get? document_id).getD []

/-- The document, with the status that a run of its tenant sets. -/
def remark (tenant_id status : String) (document : Document) : Document :=
  if document.tenant_id = tenant_id then { document with status := status } else document

/-- The status of one document changed, if the tenant owns it. -/
def Marked (w w' : World) (document_id tenant_id status : String) : Prop :=
  w'.store.documents.get? document_id =
    (w.store.documents.get? document_id).map (remark tenant_id status)

theorem Marked.frame {K : List Part} {t t' : World} {document_id tenant_id status : String}
    (h : Marked w t document_id tenant_id status) (hf : Frame K t t') (hK : .documents ∉ K) :
    Marked w t' document_id tenant_id status := by
  have hsame : t'.store.documents = t.store.documents := hf.same .documents hK
  unfold Marked
  rw [hsame]
  exact h

theorem Marked.from {K : List Part} {t t' : World} {document_id tenant_id status : String}
    (hf : Frame K w t) (hK : .documents ∉ K) (h : Marked t t' document_id tenant_id status) :
    Marked w t' document_id tenant_id status := by
  have hsame : t.store.documents = w.store.documents := hf.same .documents hK
  unfold Marked at h ⊢
  rw [h, hsame]

/-- The tenant has this document. -/
structure OwnDocument (w : World) (document_id tenant_id : String) (document : Document) :
    Prop where
  found : w.store.documents.get? document_id = some document
  scope : document.tenant_id = tenant_id

/-- A document without an entry for its chunks gets an empty one. -/
theorem chunks_after_document (s : Store) (document : Document) (document_id : String) :
    ((match s.document_chunks.get? document.document_id with
      | some _ => s.document_chunks
      | none => s.document_chunks.set document.document_id []).get? document_id).getD [] =
    (s.document_chunks.get? document_id).getD [] := by
  split
  · rfl
  · rename_i hnone
    rw [Dict.get?_set]
    split
    · rename_i heq
      rw [heq, hnone]
      rfl
    · rfl

theorem mark_document.spec (job : Job) (tenant_id status : String) (w : World) :
    Meets AnyStep (mark_document job tenant_id status) w (fun r w' =>
      Frame [.documents, .chunks] w w' ∧ w'.draws = w.draws ∧
        chunksOf w' job.resource_id = chunksOf w job.resource_id ∧
        Marked w w' job.resource_id tenant_id status ∧
        (∀ found, OwnDocument w job.resource_id tenant_id found →
          r = .ok (some { found with status := status })) ∧
        ∀ document, r = .ok (some document) →
          ∃ found, OwnDocument w job.resource_id tenant_id found ∧
            document = { found with status := status }) := by
  have hkey : ∀ found, w.store.documents.get? job.resource_id = some found →
      found.document_id = job.resource_id := fun found h => Table.key_of_get? _ h
  unfold mark_document get_document_for_tenant
  simp only [meets_bind, meets_read, then_ok]
  rcases hfound : w.store.documents.get? job.resource_id with _ | found
  · simp only [meets_pure, then_ok]
    refine ⟨Frame.refl w, trivial, trivial, ?_, ?_, ?_⟩
    · unfold Marked
      rw [hfound]
      rfl
    · intro found' hown
      have hnone := hown.found
      rw [hfound] at hnone
      cases hnone
    · intro document hr
      cases hr
  · unfold assert_tenant_scope
    by_cases hscope : found.tenant_id = tenant_id
    · subst hscope
      simp only [ne_eq, not_true, if_false, meets_bind, meets_pure, then_ok, persist_document,
        update, meets_write, any_step, true_and]
      have hid := hkey found hfound
      refine ⟨⟨fun p hp => ?_, Nat.le_refl _⟩, ?_, ?_, ?_, ?_⟩
      · cases p <;> first | rfl | simp at hp
      · exact chunks_after_document w.store { found with status := status } job.resource_id
      · unfold Marked remark
        rw [hfound, Option.map_some, if_pos rfl, ← hid]
        exact Table.get?_put_self _ _
      · intro found' hown
        have hsame := hown.found
        rw [hfound] at hsame
        cases hsame
        rfl
      · intro document hr
        cases hr
        exact ⟨found, ⟨hfound, rfl⟩, rfl⟩
    · simp only [hscope, ne_eq, not_false_eq_true, if_true, meets_bind, raise_api, meets_raise,
        then_error]
      refine ⟨Frame.refl w, trivial, trivial, ?_, ?_, ?_⟩
      · unfold Marked remark
        rw [hfound, Option.map_some, if_neg hscope]
      · intro found' hown
        have hsame := hown.found
        rw [hfound] at hsame
        cases hsame
        exact absurd hown.scope hscope
      · intro document hr
        cases hr

/-! ## A run that is told to fail -/

def ToldToFail (flags : RunFlags) : Prop :=
  flags.force_fail = true ∨ flags.transient_fail = true

theorem moved_along {job : Job} {job_id tenant_id : String} {status : JobStatus}
    {f : Job → Act α} {Q : Except PyErr α → World → Prop} (hv : Visible w job (some tenant_id))
    (hid : job.job_id = job_id) (hedge : status ∈ ALLOWED_TRANSITIONS job.status)
    (hok : ∀ t, Became [.jobs] w t job (moved job status) →
      Meets AnyStep (f (moved job status)) t Q) :
    Meets AnyStep (transition_job_status env job_id status (some tenant_id) >>= f) w Q := by
  subst hid
  have hmove : Meets (Step env anyJob) _ w _ := transition_job_status.became hv hedge trivial
  refine (meets_any hmove).bind ?_ (by rintro e t ⟨he, -⟩; cases he)
  rintro _ t ⟨⟨⟩, hb⟩
  exact hok t hb

theorem noted_along {job job' : Job} {f : Job → Act α} {Q : Except PyErr α → World → Prop}
    (hjob : Stored w job) (hsame : SameJob job job') (hstatus : job'.status = job.status)
    (hok : ∀ t, Put w t job' → Meets AnyStep (f job') t Q) :
    Meets AnyStep (persist_job job' >>= f) w Q := by
  have hnote : Meets (Step calm_env anyJob) (persist_job job') w _ :=
    persist_job.note hjob hsame hstatus
  refine (meets_any hnote).bind ?_ (by rintro e t ⟨he, -⟩; cases he)
  rintro _ t ⟨⟨⟩, hput⟩
  exact hok t hput

theorem returns_saving {m : Act α} (h : Returns m) : Returns (saving env m) := by
  have hsave : Returns (save_state env) := returns_ite (returns_write _) (returns_pure _)
  exact returns_bind h fun _ => returns_bind hsave fun _ => returns_pure _

theorem returns_seed_dlq_item (env : Env) (job_id error_class error_code tenant_id : String) :
    Returns (seed_dlq_item env job_id error_class error_code tenant_id) := by
  unfold seed_dlq_item
  refine returns_saving (returns_bind (returns_uuid4 env) fun hex => ?_)
  exact returns_bind (returns_write _) fun _ => returns_pure _

/-- Here an item may replace another one: only the job counts. -/
theorem dead_letter.any {job : Job} {tenant_id : String} (error_code : String)
    (hv : Visible w job (some tenant_id)) (hrunning : job.status = .running) :
    Meets AnyStep (dead_letter env job tenant_id error_code) w (fun r w' =>
      ∃ item job', r = .ok (item, job') ∧ Became [.jobs, .dlq] w w' job job' ∧
        job'.status = .failed) := by
  unfold dead_letter
  refine moved_along hv rfl (by simp [hrunning, ALLOWED_TRANSITIONS]) fun t₁ hb₁ => ?_
  refine moved_along (hb₁.visible hv) rfl (by simp [moved, ALLOWED_TRANSITIONS]) fun t₂ hb₂ => ?_
  have hb₂ := hb₁.trans hb₂
  refine past_return (K := [.dlq]) (touches_seed_dlq_item env (by simp) _ _ _ _)
    (returns_seed_dlq_item env _ _ _ _) fun item t₃ hf₃ => ?_
  have hb₃ : Became [.jobs, .dlq] w t₃ job _ :=
    ⟨hb₂.same, hb₂.stored.frame hf₃ (by simp),
      (hb₂.frame.mono (by simp)).trans (hf₃.mono (by simp))⟩
  refine moved_along (hb₃.visible hv) rfl (by simp [moved, ALLOWED_TRANSITIONS]) fun t₄ hb₄ => ?_
  have hb₄ : Became [.jobs, .dlq] w t₄ job _ := hb₃.trans (hb₄.widen (by simp))
  refine past_return (K := []) (touches_utcnow env) (returns_utcnow env) fun now t₅ hf₅ => ?_
  have hb₅ := hb₄.later hf₅ (by simp) (by simp)
  refine noted_along hb₅.stored ⟨rfl, rfl, rfl, rfl, rfl, rfl⟩ rfl fun t₆ hput => ?_
  rw [meets_pure]
  exact ⟨item, _, rfl, hb₅.noted hput ⟨rfl, rfl, rfl, rfl, rfl, rfl⟩ (by simp), rfl⟩

theorem fail_parse.spec (env : Env) (job : Job) (tenant_id error_code : String) (w : World) :
    Meets AnyStep (fail_parse env job tenant_id error_code) w (fun _ w' =>
      Frame [.documents, .chunks] w w' ∧
        (job.job_type = .parse → Marked w w' job.resource_id tenant_id "parse_failed")) := by
  unfold fail_parse
  rw [meets_ite]
  refine ⟨fun _ => ?_, fun hno => ?_⟩
  · have hmanifest : ∀ manifest, Returns (failed_manifest env error_code manifest) := fun _ =>
      returns_bind (returns_utcnow env) fun _ => returns_pure _
    refine past_return (K := []) (touches_change_manifest (fun _ =>
      keeps_bind (touches_utcnow env) fun _ => keeps_pure _) _ _)
      (returns_change_manifest hmanifest _ _) fun _ t hf => ?_
    have hmark := mark_document.spec job tenant_id "parse_failed" t
    refine hmark.bind ?_ ?_
    · intro document t' h
      rw [meets_pure]
      exact ⟨(hf.mono (by simp)).trans h.1, fun _ => .from hf (by simp) h.2.2.2.1⟩
    · intro e t' h
      exact ⟨(hf.mono (by simp)).trans h.1, fun _ => .from hf (by simp) h.2.2.2.1⟩
  · rw [meets_pure]
    exact ⟨Frame.refl w, fun h => absurd h hno⟩

/-- The parts that a run that is told to fail can change. -/
def failedParts : List Part := [.jobs, .dlq, .documents, .chunks]

/-- How a run that was told to fail leaves its job, also when it raised: it
waits for a retry, or it is failed and the document of a parse job is
marked. -/
def GivenUp (env : Env) (flags : RunFlags) (tenant_id : String) (w w' : World) (job : Job) :
    Prop :=
  ∃ job', Became failedParts w w' job job' ∧
    ((job'.status = .retrying ∧ ¬ Fails env flags job.retry_count ∧
        w'.store.documents = w.store.documents) ∨
      (job'.status = .failed ∧ Fails env flags job.retry_count ∧
        (job.job_type = .parse → Marked w w' job.resource_id tenant_id "parse_failed")))

theorem fail_job.any {job : Job} {tenant_id : String} {flags : RunFlags}
    (force_error_code : Option String) (hfails : Fails env flags job.retry_count)
    (hv : Visible w job (some tenant_id)) (hrunning : job.status = .running) :
    Meets AnyStep (fail_job env job tenant_id force_error_code) w
      (fun _ w' => GivenUp env flags tenant_id w w' job) := by
  unfold fail_job
  refine (dead_letter.any _ hv hrunning).bind ?_ (by rintro e t ⟨item, job', he, -⟩; cases he)
  rintro ⟨item, failed_job⟩ t₁ ⟨_, job', ⟨⟩, hb₁, hfailed⟩
  have hgiven : ∀ t t', Frame [.documents, .chunks] t₁ t → Frame [] t t' →
      (job.job_type = .parse → Marked t₁ t job.resource_id tenant_id "parse_failed") →
      GivenUp env flags tenant_id w t' job := by
    intro t t' hf hf' hmarked
    have hb₁' : Became failedParts w t₁ job failed_job := hb₁.widen (by simp [failedParts])
    have hb := (hb₁'.later hf (by simp) (by simp [failedParts])).later hf' (by simp) (by simp)
    exact ⟨failed_job, hb, .inr ⟨hfailed, hfails, fun htype =>
      (Marked.from hb₁.frame (by simp) (hmarked htype)).frame hf' (by simp)⟩⟩
  have hparse := fail_parse.spec env job tenant_id
    (wordOr force_error_code (default_error_code job)) t₁
  refine hparse.bind ?_ ?_
  · intro _ t₂ h
    refine past_return (K := []) (touches_checkpoint env _ _ _ _ _ _)
      (returns_checkpoint env _ _ _ _ _ _) fun _ t₃ hf₃ => ?_
    rw [meets_pure]
    exact hgiven t₂ t₃ h.1 hf₃ h.2
  · intro e t₂ h
    exact hgiven t₂ t₂ h.1 (Frame.refl t₂) h.2

theorem run_told_to_fail.spec {job : Job} {tenant_id : String} {flags : RunFlags}
    (hflags : ToldToFail flags) (hv : Visible w job (some tenant_id))
    (hrunning : job.status = .running) :
    Meets AnyStep (run_started env job tenant_id flags) w
      (fun _ w' => GivenUp env flags tenant_id w w' job) := by
  unfold run_started
  rw [meets_ite]
  refine ⟨fun hforce => fail_job.any _ (.inl hforce) hv hrunning, fun hforce => ?_⟩
  have htransient := hflags.resolve_left hforce
  rw [if_pos htransient, meets_ite]
  refine ⟨fun hleft => ?_, fun hspent => fail_job.any _ (.inr ⟨htransient, hspent⟩) hv hrunning⟩
  have hretry : Meets (Step env anyJob) (retry_job env job tenant_id
      (wordOr flags.force_error_code "RAG_UPSTREAM_UNAVAILABLE")) w _ :=
    retry_job.spec any_free _ hv hrunning
  refine (meets_any hretry).post ?_
  rintro _ w' ⟨_, job', rfl, -, hb, hstatus⟩
  refine ⟨job', hb.widen (by simp [failedParts]),
    .inl ⟨hstatus, ?_, hb.frame.same .documents (by simp)⟩⟩
  rintro (h | ⟨-, h⟩)
  · exact hforce h
  · exact h hleft

/-- The job as a run that was told to fail finds and leaves it. -/
theorem told_to_fail_run.spec {job : Job} {tenant_id : String} {flags : RunFlags}
    (hv : Visible w job (some tenant_id)) (hstart : Startable job.status)
    (hflags : ToldToFail flags) :
    Meets AnyStep (run_job_once env job.job_id tenant_id flags) w
      (fun _ w' => GivenUp env flags tenant_id w w' job) := by
  have hspec : Meets (Step env anyJob) (begin_run env job.job_id tenant_id) w _ :=
    begin_run.spec any_free w job.job_id tenant_id
  unfold run_job_once
  refine any_saving ((meets_any hspec).bind ?_ ?_) ?_
  · rintro job' t ⟨hf, found, hid, hfound, -, hb, hrunning, hretry⟩
    cases hv.stored.unique hfound.stored hid
    refine (run_told_to_fail.spec hflags (hb.visible hv) hrunning).post ?_
    rintro r w' ⟨last, hlast, hends⟩
    rw [hretry, hb.same.job_type, hb.same.resource_id] at hends
    refine ⟨last, (hb.widen (by simp [failedParts])).trans hlast, ?_⟩
    rcases hends with ⟨hstatus, hno, hdocuments⟩ | ⟨hstatus, hfails, hmarked⟩
    · exact .inl ⟨hstatus, hno, hdocuments.trans (hf.same .documents (by simp))⟩
    · exact .inr ⟨hstatus, hfails, fun htype => .from hf (by simp) (hmarked htype)⟩
  · rintro e t ⟨-, hno⟩
    exact absurd hstart ((hno job rfl hv.stored).2 hv)
  · rintro result t t' ⟨last, hlast, hends⟩ hf
    refine ⟨last, hlast.later hf (by simp) (by simp), ?_⟩
    rcases hends with ⟨hstatus, hno, hdocuments⟩ | ⟨hstatus, hfails, hmarked⟩
    · have hsame : t'.store.documents = t.store.documents := hf.same .documents (by simp)
      exact .inl ⟨hstatus, hno, hsame.trans hdocuments⟩
    · exact .inr ⟨hstatus, hfails, fun htype => (hmarked htype).frame hf (by simp)⟩

end bid_evaluation.endings
