-- What each write does to the documents, their chunks and the parse
-- manifests. A document is filed once, and everything else that names one
-- is written while it is there.
import BidEvaluation.DeliverySteps

open dict_lib stepwise bid_evaluation.values bid_evaluation.core bid_evaluation.store_ops
  bid_evaluation.store_workflow bid_evaluation.store_admin bid_evaluation.store_parse
  bid_evaluation.store_eval bid_evaluation.job_run bid_evaluation.operations
  bid_evaluation.job_steps bid_evaluation.run_steps bid_evaluation.op_steps
  bid_evaluation.job_laws bid_evaluation.writes

namespace bid_evaluation.links

variable {env : Env} {w w' : World} {K : List Kind}

/-! ## One write -/

/-- All of a document but its status. -/
structure SameFile (document document' : Document) : Prop where
  document_id : document'.document_id = document.document_id
  tenant_id : document'.tenant_id = document.tenant_id
  project_id : document'.project_id = document.project_id
  supplier_id : document'.supplier_id = document.supplier_id
  doc_type : document'.doc_type = document.doc_type
  filename : document'.filename = document.filename
  file_sha256 : document'.file_sha256 = document.file_sha256
  file_size : document'.file_size = document.file_size
  storage_uri : document'.storage_uri = document.storage_uri

theorem SameFile.refl (document : Document) : SameFile document document :=
  ⟨rfl, rfl, rfl, rfl, rfl, rfl, rfl, rfl, rfl⟩

theorem SameFile.symm {a b : Document} (h : SameFile a b) : SameFile b a :=
  ⟨h.1.symm, h.2.symm, h.3.symm, h.4.symm, h.5.symm, h.6.symm, h.7.symm, h.8.symm, h.9.symm⟩

theorem SameFile.trans {a b c : Document} (h : SameFile a b) (h' : SameFile b c) : SameFile a c :=
  ⟨h'.1.trans h.1, h'.2.trans h.2, h'.3.trans h.3, h'.4.trans h.4, h'.5.trans h.5, h'.6.trans h.6,
    h'.7.trans h.7, h'.8.trans h.8, h'.9.trans h.9⟩

/-- What a manifest is of. -/
structure SameParse (manifest manifest' : ParseManifest) : Prop where
  job_id : manifest'.job_id = manifest.job_id
  document_id : manifest'.document_id = manifest.document_id
  tenant_id : manifest'.tenant_id = manifest.tenant_id

theorem SameParse.refl (manifest : ParseManifest) : SameParse manifest manifest := ⟨rfl, rfl, rfl⟩

theorem SameParse.trans {a b c : ParseManifest} (h : SameParse a b) (h' : SameParse b c) :
    SameParse a c :=
  ⟨h'.job_id.trans h.job_id, h'.document_id.trans h.document_id, h'.tenant_id.trans h.tenant_id⟩

/-- The manifest is of a stored parse job for a stored document, both of its
own tenant. -/
structure Founded (s : Store) (manifest : ParseManifest) : Prop where
  job : ∃ job, s.jobs.get? manifest.job_id = some job ∧ job.job_type = .parse ∧
    job.resource_id = manifest.document_id ∧ job.tenant_id = manifest.tenant_id
  document : ∃ document, s.documents.get? manifest.document_id = some document ∧
    document.tenant_id = manifest.tenant_id

/-- No new chunk list, but for this document. -/
def ChunksOnlyOf (document_id : String) (w w' : World) : Prop :=
  ∀ id, (w'.store.document_chunks.get? id).isSome →
    (w.store.document_chunks.get? id).isSome ∨ id = document_id

/-- One write to the documents, the chunks or the manifests. -/
inductive LinkStep (env : Env) (w w' : World) : Prop where
  | aside (hd : w'.store.documents = w.store.documents)
      (hc : w'.store.document_chunks = w.store.document_chunks)
      (hm : w'.store.parse_manifests = w.store.parse_manifests)
  | filed (document : Document) (hid : DrawnBefore env "doc_" w.draws document.document_id)
      (hnew : w.store.documents.get? document.document_id = none)
      (hfirst : document.file_sha256 ≠ "" → ∀ other ∈ w.store.documents.values,
        other.tenant_id = document.tenant_id → other.file_sha256 ≠ document.file_sha256)
      (hd : w'.store.documents = w.store.documents.put document)
      (hc : ChunksOnlyOf document.document_id w w')
      (hm : w'.store.parse_manifests = w.store.parse_manifests)
  | remarked (old new : Document) (hold : w.store.documents.get? old.document_id = some old)
      (hsame : SameFile old new) (hd : w'.store.documents = w.store.documents.put new)
      (hc : ChunksOnlyOf old.document_id w w')
      (hm : w'.store.parse_manifests = w.store.parse_manifests)
  | chunked (document : Document)
      (hstored : w.store.documents.get? document.document_id = some document)
      (hd : w'.store.documents = w.store.documents) (hc : ChunksOnlyOf document.document_id w w')
      (hm : w'.store.parse_manifests = w.store.parse_manifests)
  | planned (manifest : ParseManifest)
      (hnew : w.store.parse_manifests.get? manifest.job_id = none)
      (hfounded : Founded w.store manifest)
      (hd : w'.store.documents = w.store.documents)
      (hc : w'.store.document_chunks = w.store.document_chunks)
      (hm : w'.store.parse_manifests = w.store.parse_manifests.put manifest)
  | noted (old new : ParseManifest) (hold : w.store.parse_manifests.get? old.job_id = some old)
      (hsame : SameParse old new) (hd : w'.store.documents = w.store.documents)
      (hc : w'.store.document_chunks = w.store.document_chunks)
      (hm : w'.store.parse_manifests = w.store.parse_manifests.put new)

/-- Every write of the program is one, from this state on. -/
abbrev Links (env : Env) (m : Act α) (w : World) : Prop :=
  Meets (LinkStep env) m w fun _ _ => True

/-- Every write of the program is one, from any state on. -/
abbrev KeepsLinks (env : Env) (m : Act α) : Prop := Keeps (LinkStep env) m

theorem keeps_links (h : Writes K m) (hd : .documents ∉ K) (hc : .chunks ∉ K)
    (hm : .manifests ∉ K) : KeepsLinks env m := by
  refine h.mono ?_
  rintro w w' ⟨kind, hkind, hwrite⟩
  cases hwrite with
  | store _ hstore =>
    cases hstore with
    | document => simp [hd] at hkind
    | chunks => simp [hc] at hkind
    | manifest => simp [hm] at hkind
    | _ => exact .aside rfl rfl rfl
  | _ => exact .aside rfl rfl rfl

/-! ## What stays -/

/-- Documents and manifests stay, as what they are of. -/
structure Stays (w w' : World) : Prop where
  documents : ∀ id document, w.store.documents.get? id = some document →
    ∃ document', w'.store.documents.get? id = some document' ∧ SameFile document document'
  manifests : ∀ id manifest, w.store.parse_manifests.get? id = some manifest →
    ∃ manifest', w'.store.parse_manifests.get? id = some manifest' ∧ SameParse manifest manifest'

theorem Stays.refl (w : World) : Stays w w :=
  ⟨fun _ document h => ⟨document, h, SameFile.refl document⟩,
    fun _ manifest h => ⟨manifest, h, SameParse.refl manifest⟩⟩

theorem Stays.trans {w₁ w₂ w₃ : World} (h : Stays w₁ w₂) (h' : Stays w₂ w₃) : Stays w₁ w₃ := by
  constructor
  · intro id document hdocument
    obtain ⟨document₂, hdocument₂, hsame₂⟩ := h.documents id document hdocument
    obtain ⟨document₃, hdocument₃, hsame₃⟩ := h'.documents id document₂ hdocument₂
    exact ⟨document₃, hdocument₃, hsame₂.trans hsame₃⟩
  · intro id manifest hmanifest
    obtain ⟨manifest₂, hmanifest₂, hsame₂⟩ := h.manifests id manifest hmanifest
    obtain ⟨manifest₃, hmanifest₃, hsame₃⟩ := h'.manifests id manifest₂ hmanifest₂
    exact ⟨manifest₃, hmanifest₃, hsame₂.trans hsame₃⟩

theorem documents_stay_put {old new : Document} {t : Table Document.document_id}
    (hold : t.get? old.document_id = some old) (hsame : SameFile old new) :
    ∀ id document, t.get? id = some document →
      ∃ document', (t.put new).get? id = some document' ∧ SameFile document document' := by
  intro id document hdocument
  rw [Table.get?_put]
  split
  · rename_i hid
    rw [hid, hsame.document_id, hold] at hdocument
    cases hdocument
    exact ⟨new, rfl, hsame⟩
  · exact ⟨document, hdocument, SameFile.refl document⟩

theorem manifests_stay_put {old new : ParseManifest} {t : Table ParseManifest.job_id}
    (hold : t.get? old.job_id = some old) (hsame : SameParse old new) :
    ∀ id manifest, t.get? id = some manifest →
      ∃ manifest', (t.put new).get? id = some manifest' ∧ SameParse manifest manifest' := by
  intro id manifest hmanifest
  rw [Table.get?_put]
  split
  · rename_i hid
    rw [hid, hsame.job_id, hold] at hmanifest
    cases hmanifest
    exact ⟨new, rfl, hsame⟩
  · exact ⟨manifest, hmanifest, SameParse.refl manifest⟩

/-- A document that is filed is a new one, and the others stay what they are of. -/
theorem stays_step (h : LinkStep env w w') : Stays w w' := by
  have hdocuments : w'.store.documents = w.store.documents → ∀ id document,
      w.store.documents.get? id = some document →
        ∃ document', w'.store.documents.get? id = some document' ∧ SameFile document document' :=
    fun hd id document hdocument => ⟨document, hd ▸ hdocument, SameFile.refl document⟩
  have hmanifests : w'.store.parse_manifests = w.store.parse_manifests → ∀ id manifest,
      w.store.parse_manifests.get? id = some manifest → ∃ manifest',
        w'.store.parse_manifests.get? id = some manifest' ∧ SameParse manifest manifest' :=
    fun hm id manifest hmanifest => ⟨manifest, hm ▸ hmanifest, SameParse.refl manifest⟩
  cases h with
  | aside hd hc hm => exact ⟨hdocuments hd, hmanifests hm⟩
  | filed document hid hnew hfirst hd hc hm =>
    refine ⟨fun id other hother => ⟨other, ?_, SameFile.refl other⟩, hmanifests hm⟩
    rw [hd, Table.get?_put, if_neg, hother]
    rintro rfl
    rw [hother] at hnew
    cases hnew
  | remarked old new hold hsame hd hc hm =>
    exact ⟨hd ▸ documents_stay_put hold hsame, hmanifests hm⟩
  | chunked document hstored hd hc hm => exact ⟨hdocuments hd, hmanifests hm⟩
  | planned manifest hnew hfounded hd hc hm =>
    refine ⟨hdocuments hd, fun id other hother => ⟨other, ?_, SameParse.refl other⟩⟩
    rw [hm, Table.get?_put, if_neg, hother]
    rintro rfl
    rw [hother] at hnew
    cases hnew
  | noted old new hold hsame hd hc hm =>
    exact ⟨hdocuments hd, hm ▸ manifests_stay_put hold hsame⟩

theorem Meets.stays {m : Act α} {Q : Except PyErr α → World → Prop}
    (h : Meets (LinkStep env) m w Q) : Stays w (m.final w) :=
  (h.1.mono fun _ _ => stays_step).last Stays.refl fun _ _ _ => Stays.trans

/-- Since `w`, jobs and manifests are as they were. -/
structure Unmoved (w t : World) : Prop where
  jobs : t.store.jobs = w.store.jobs
  manifests : t.store.parse_manifests = w.store.parse_manifests
  draws : w.draws ≤ t.draws

theorem Unmoved.refl (w : World) : Unmoved w w := ⟨rfl, rfl, Nat.le_refl _⟩

theorem Unmoved.trans {w₁ w₂ w₃ : World} (h : Unmoved w₁ w₂) (h' : Unmoved w₂ w₃) :
    Unmoved w₁ w₃ :=
  ⟨h'.jobs.trans h.jobs, h'.manifests.trans h.manifests, h.draws.trans h'.draws⟩

theorem unmoved_final {m : Act α} (h : Writes K m) (hj : .jobs ∉ K) (hm : .manifests ∉ K)
    (w : World) : Unmoved w (m.final w) := by
  have hsteps : Keeps Unmoved m := h.mono fun a b ⟨kind, hkind, hwrite⟩ => by
    cases hwrite with
    | draw => exact ⟨rfl, rfl, Nat.le_succ _⟩
    | store _ hstore =>
      cases hstore with
      | job => simp [hj] at hkind
      | manifest => simp [hm] at hkind
      | _ => exact ⟨rfl, rfl, Nat.le_refl _⟩
    | _ => exact ⟨rfl, rfl, Nat.le_refl _⟩
  exact hsteps.final Unmoved.refl (fun _ _ _ => Unmoved.trans) w

/-- Since `w`, the documents too are as they were. -/
structure Untouched (w t : World) : Prop extends Unmoved w t where
  documents : t.store.documents = w.store.documents

theorem Untouched.trans {w₁ w₂ w₃ : World} (h : Untouched w₁ w₂) (h' : Untouched w₂ w₃) :
    Untouched w₁ w₃ := ⟨h.toUnmoved.trans h'.toUnmoved, h'.documents.trans h.documents⟩

theorem untouched_final {m : Act α} (h : Writes [] m) (w : World) : Untouched w (m.final w) := by
  have hsteps : Keeps (fun a b => b.store.documents = a.store.documents) m :=
    h.mono fun a b ⟨kind, hkind, hwrite⟩ => by
      simp only [List.mem_singleton] at hkind
      subst hkind
      cases hwrite with
      | store _ hstore => cases hstore <;> rfl
      | _ => rfl
  exact ⟨unmoved_final h (by simp) (by simp) w,
    hsteps.final (fun _ => rfl) (fun _ _ _ h h' => h'.trans h) w⟩

/-! ## Going on -/

theorem links_of_writes {m : Act α} (h : Writes K m) (hd : .documents ∉ K) (hc : .chunks ∉ K)
    (hm : .manifests ∉ K) (w : World) : Links env m w := (keeps_links h hd hc hm).meets w

/-- Go past a program that touches no job, document or manifest. -/
theorem past_noise {m : Act α} {f : α → Act β} (h : Writes [] m)
    (hf : ∀ a t, Untouched w t → Links env (f a) t) : Links env (m >>= f) w :=
  Meets.bind (P := fun _ t => Untouched w t)
    ⟨(links_of_writes h (by simp) (by simp) (by simp) w).1, untouched_final h w⟩ hf
    fun _ _ _ => trivial

theorem Untouched.stays {t : World} (h : Untouched w t) : Stays w t :=
  ⟨fun _ document hdocument => ⟨document, h.documents ▸ hdocument, SameFile.refl document⟩,
    fun _ manifest hmanifest => ⟨manifest, h.manifests ▸ hmanifest, SameParse.refl manifest⟩⟩

/-- Go past any other program. -/
theorem past_links {m : Act α} {f : α → Act β} (h : Links env m w)
    (hf : ∀ a t, Stays w t → Links env (f a) t) : Links env (m >>= f) w :=
  Meets.bind (P := fun _ t => Stays w t) ⟨h.1, Meets.stays h⟩ hf fun _ _ _ => trivial

theorem then_done {m : Act α} {g : α → β} (h : Links env m w) :
    Links env (m >>= fun a => pure (g a)) w :=
  h.bind (fun _ _ _ => meets_pure.2 trivial) fun _ _ _ => trivial

theorem past_read {f : World → Act β} (h : Links env (f w) w) :
    Links env (stepwise.read >>= f) w := meets_bind.2 (meets_read.2 h)

/-- Go past the read of a document. It is one of the tenant. -/
theorem past_document {document_id tenant_id : String} {f : Option Document → Act β}
    (hnone : Links env (f none) w)
    (hsome : ∀ document, w.store.documents.get? document_id = some document →
      document.tenant_id = tenant_id → Links env (f (some document)) w) :
    Links env (get_document_for_tenant document_id tenant_id >>= f) w := by
  simp only [get_document_for_tenant, meets_bind, meets_read, then_ok]
  split
  · exact meets_pure.2 hnone
  · rename_i document hdocument
    simp only [assert_tenant_scope, meets_bind]
    by_cases htenant : document.tenant_id = tenant_id
    · simp only [htenant, ne_eq, not_true_eq_false, if_false, meets_pure, then_ok]
      exact hsome document hdocument htenant
    · simp only [htenant, ne_eq, not_false_eq_true, if_true, meets_raise, then_error, raise_api]

theorem links_saving {m : Act α} (h : Links env m w) : Links env (saving env m) w :=
  past_links h fun _ t _ => links_of_writes (K := [])
    (keeps_bind (writes_save_state env) fun _ => keeps_pure _) (by simp) (by simp) (by simp) t

theorem links_quiet {m : Act α} (h : Links env m w) : Links env (quiet m) w := then_done h

/-! ## Chunks and manifests -/

theorem chunks_of_set {s : Store} (document_id : String) (chunks : List PyDict) :
    ∀ id, ((s.document_chunks.set document_id chunks).get? id).isSome →
      (s.document_chunks.get? id).isSome ∨ id = document_id := by
  intro id hid
  rw [Dict.get?_set] at hid
  split at hid
  · rename_i heq
    exact .inr heq
  · exact .inl hid

theorem replace_chunks.linked (tenant_id document_id : String) (chunks : List PyDict) :
    KeepsLinks env (replace_chunks tenant_id document_id chunks) := by
  refine keeps_iff.2 fun w => past_read ?_
  split
  · exact meets_pure.2 trivial
  · rename_i document hdocument
    refine meets_ite.2 ⟨fun _ => meets_pure.2 trivial, fun _ => then_done ?_⟩
    have hid := w.store.documents.key_of_get? hdocument
    refine meets_write.2 ⟨.chunked document ?_ rfl ?_ rfl, trivial⟩
    · rw [hid]
      exact hdocument
    · intro id hchunks
      rw [hid]
      exact chunks_of_set document_id chunks id hchunks

theorem persist_document_chunks.linked (tenant_id document_id : String) (chunks : List PyDict) :
    KeepsLinks env (persist_document_chunks env tenant_id document_id chunks) :=
  keeps_bind (keeps_lift _) fun _ => replace_chunks.linked _ _ _

/-- The manifest is stored, as what it is of. -/
def Noted (w : World) (manifest : ParseManifest) : Prop :=
  ∃ stored, w.store.parse_manifests.get? manifest.job_id = some stored ∧ SameParse manifest stored

theorem Noted.stays {manifest : ParseManifest} (h : Noted w manifest) (hs : Stays w w') :
    Noted w' manifest := by
  obtain ⟨stored, hstored, hsame⟩ := h
  obtain ⟨later, hlater, hsame'⟩ := hs.manifests _ stored hstored
  exact ⟨later, hlater, hsame.trans hsame'⟩

theorem Noted.of_get {job_id tenant_id : String} {manifest : ParseManifest}
    (h : get_parse_manifest_for_tenant w.store job_id tenant_id = some manifest) :
    Noted w manifest := by
  have hget := (Option.filter_eq_some_iff.1 h).1
  have hid := w.store.parse_manifests.key_of_get? hget
  exact ⟨manifest, hid ▸ hget, SameParse.refl manifest⟩

theorem persist_manifest.linked {old new : ParseManifest} (hold : Noted w old)
    (hsame : SameParse old new) : Links env (persist_parse_manifest new) w := by
  obtain ⟨stored, hstored, hstays⟩ := hold
  refine meets_write.2 ⟨.noted stored new ?_ ?_ rfl rfl rfl, trivial⟩
  · rw [hstays.job_id]
    exact hstored
  · exact ⟨hsame.job_id.trans hstays.job_id.symm, hsame.document_id.trans hstays.document_id.symm,
      hsame.tenant_id.trans hstays.tenant_id.symm⟩

/-- A change of a manifest that leaves alone what it is of. -/
structure SmallChange (change : ParseManifest → Act ParseManifest) : Prop where
  writes : ∀ manifest, Writes [] (change manifest)
  same : ∀ manifest manifest' w, (change manifest).result w = .ok manifest' →
    SameParse manifest manifest'

theorem started_manifest.small (env : Env) : SmallChange (started_manifest env) := by
  refine ⟨writes_started_manifest env, fun manifest manifest' w h => ?_⟩
  unfold started_manifest first_start at h
  split at h <;> cases h <;> exact ⟨rfl, rfl, rfl⟩

theorem retry_manifest.small (error_code : String) : SmallChange (retry_manifest error_code) := by
  refine ⟨fun _ => keeps_pure _, fun manifest manifest' w h => ?_⟩
  cases h
  exact ⟨rfl, rfl, rfl⟩

theorem failed_manifest.small (env : Env) (error_code : String) :
    SmallChange (failed_manifest env error_code) := by
  refine ⟨fun _ => keeps_bind (writes_utcnow env) fun _ => keeps_pure _, fun _ _ w h => ?_⟩
  cases h
  exact ⟨rfl, rfl, rfl⟩

theorem succeeded_manifest.small (env : Env) : SmallChange (succeeded_manifest env) := by
  refine ⟨fun _ => keeps_bind (writes_utcnow env) fun _ => keeps_pure _, fun _ _ w h => ?_⟩
  cases h
  exact ⟨rfl, rfl, rfl⟩

theorem change_manifest.linked {change : ParseManifest → Act ParseManifest}
    (h : SmallChange change) (job_id tenant_id : String) :
    KeepsLinks env (change_manifest job_id tenant_id change) := by
  refine keeps_iff.2 fun w => past_read ?_
  split
  · exact meets_pure.2 trivial
  · rename_i manifest hmanifest
    have hchange := h.writes manifest
    have hlinks : Links env (change manifest) w :=
      links_of_writes hchange (by simp) (by simp) (by simp) w
    refine Meets.bind (P := fun r t => (change manifest).result w = r ∧ Stays w t)
      ⟨hlinks.1, rfl, Meets.stays hlinks⟩ ?_ fun _ _ _ => trivial
    rintro changed t ⟨hresult, hstays⟩
    exact persist_manifest.linked ((Noted.of_get hmanifest).stays hstays)
      (h.same manifest changed w hresult)

/-! ## Documents -/

theorem chunks_of_persist (document : Document) (w : World) :
    ChunksOnlyOf document.document_id w ((persist_document document).final w) := by
  intro id hid
  dsimp only [persist_document, update, Prog.final, write, lastState, List.getLast?_singleton,
    Option.getD_some] at hid
  split at hid
  · exact .inl hid
  · exact chunks_of_set _ _ id hid

/-- The document is stored, as what it was. -/
def Kept (w : World) (document : Document) : Prop :=
  ∃ stored, w.store.documents.get? document.document_id = some stored ∧ SameFile document stored

theorem Kept.stays {document : Document} (h : Kept w document) (hs : Stays w w') :
    Kept w' document := by
  obtain ⟨stored, hstored, hsame⟩ := h
  obtain ⟨later, hlater, hsame'⟩ := hs.documents _ stored hstored
  exact ⟨later, hlater, hsame.trans hsame'⟩

/-- A document is stored again with another status. -/
theorem remark_document.linked {document : Document} (status : String) (h : Kept w document) :
    Links env (persist_document { document with status := status }) w := by
  obtain ⟨stored, hstored, hsame⟩ := h
  have hid := hsame.document_id
  refine meets_write.2 ⟨.remarked stored { document with status := status } ?_ ?_ rfl ?_ rfl,
    trivial⟩
  · rw [hid]
    exact hstored
  · have hback := hsame.symm
    exact ⟨hback.1, hback.2, hback.3, hback.4, hback.5, hback.6, hback.7, hback.8, hback.9⟩
  · rw [hid]
    exact chunks_of_persist { document with status := status } w

theorem mark_document.linked (job : Job) (tenant_id status : String) :
    KeepsLinks env (mark_document job tenant_id status) := by
  refine keeps_iff.2 fun w => past_document (meets_pure.2 trivial) fun document hdocument _ => ?_
  have hid := w.store.documents.key_of_get? hdocument
  exact then_done (remark_document.linked status ⟨document, hid ▸ hdocument, SameFile.refl _⟩)

/-! ## The run of a parse job -/

theorem fail_manifest.linked {manifest stored : ParseManifest} (error_code : String)
    (hstored : Noted w stored) (hsame : SameParse stored manifest) :
    Links env (fail_manifest env manifest error_code) w :=
  past_noise (writes_utcnow env) fun _ _ ht =>
    persist_manifest.linked (hstored.stays ht.stays) (hsame.trans ⟨rfl, rfl, rfl⟩)

theorem parse_and_persist.linked (document_id tenant_id job_id : String) (outcome : MineruOutcome) :
    KeepsLinks env (parse_and_persist env document_id tenant_id job_id outcome) := by
  refine keeps_iff.2 fun w => past_read ?_
  split
  · exact meets_pure.2 trivial
  · rename_i manifest hmanifest
    have hnoted := Noted.of_get hmanifest
    refine past_noise (writes_utcnow env) fun started_at t₁ ht₁ => ?_
    refine past_links (persist_manifest.linked (hnoted.stays ht₁.stays) ⟨rfl, rfl, rfl⟩)
      fun _ t₂ ht₂ => ?_
    have hlater := (hnoted.stays ht₁.stays).stays ht₂
    cases outcome with
    | failed error_code => exact fail_manifest.linked error_code hlater ⟨rfl, rfl, rfl⟩
    | completed chunks =>
      have hreplace : KeepsLinks env (replace_some_chunks tenant_id document_id chunks) :=
        keeps_ite (keeps_pure _)
          (keeps_bind (replace_chunks.linked _ _ _) fun _ => keeps_pure _)
      refine past_links (hreplace.meets t₂) fun _ t₃ ht₃ => ?_
      refine past_noise (writes_utcnow env) fun ended_at t₄ ht₄ => ?_
      refine past_links (persist_manifest.linked ((hlater.stays ht₃).stays ht₄.stays)
        ⟨rfl, rfl, rfl⟩) fun _ t₅ ht₅ => past_read ?_
      split
      · exact meets_pure.2 trivial
      · exact fail_manifest.linked _ (((hlater.stays ht₃).stays ht₄.stays).stays ht₅)
          ⟨rfl, rfl, rfl⟩

theorem parse_document_file.linked (document : Document) (tenant_id : String)
    (manifest : Option ParseManifest) :
    KeepsLinks env (parse_document_file env document tenant_id manifest) := by
  refine keeps_bind ?_ fun _ => ?_
  · unfold try_mineru_official_api
    split
    · exact keeps_pure _
    · exact keeps_bind (keeps_links (K := []) writes_draw (by simp) (by simp) (by simp)) fun n =>
        keeps_foldlM (fun _ outcome => parse_and_persist.linked _ _ _ outcome) _ _
  · refine keeps_bind (keeps_links (K := []) writes_draw (by simp) (by simp) (by simp)) fun n => ?_
    split
    · exact keeps_pure _
    · exact keeps_links (writes_parse_by_route (K := []) env _ _) (by simp) (by simp) (by simp)

/-- The manifest was read earlier in the run. It is counted as it stands then. -/
theorem persist_counted.linked {manifest : Option ParseManifest} (parsed persisted : List PyDict)
    (h : ∀ m, manifest = some m → Noted w m) :
    Links env (persist_counted manifest parsed persisted) w := by
  cases manifest with
  | none => exact meets_pure.2 trivial
  | some manifest => exact persist_manifest.linked (h manifest rfl) ⟨rfl, rfl, rfl⟩

theorem index_document.linked (document : Document) (tenant_id : String)
    {manifest : Option ParseManifest} (h : ∀ m, manifest = some m → Noted w m) :
    Links env (index_document env document tenant_id manifest) w := by
  refine past_links ((parse_document_file.linked document tenant_id manifest).meets w)
    fun parsed t₁ ht₁ => ?_
  refine past_links ((persist_document_chunks.linked tenant_id _ parsed).meets t₁)
    fun persisted t₂ ht₂ => ?_
  refine past_links (persist_counted.linked parsed persisted
    fun m hm => ((h m hm).stays ht₁).stays ht₂) fun _ t₃ ht₃ => ?_
  refine past_links (links_of_writes (K := [.sources]) (writes_register_chunks env (by simp) _ _ _)
    (by simp) (by simp) (by simp) t₃) fun _ t₄ ht₄ => ?_
  exact links_of_writes (K := [.index]) (writes_index env (by simp) _ _ _ _) (by simp) (by simp)
    (by simp) t₄

theorem index_parsed.linked (job : Job) (tenant_id : String) :
    KeepsLinks env (index_parsed env job tenant_id) := by
  refine keeps_iff.2 fun w => ?_
  -- The manifest that the end of the run counts is read after the change.
  have hmarked : Meets (LinkStep env) (mark_parsed env job tenant_id) w fun r t =>
      ∀ document manifest m, r = .ok (document, manifest) → manifest = some m → Noted t m := by
    refine Meets.bind (P := fun _ _ => True)
      ((change_manifest.linked (succeeded_manifest.small env) _ _).meets w) (fun _ t _ => ?_) ?_
    · refine meets_bind.2 (meets_read.2 (then_ok.2 ?_))
      have hmark := (mark_document.linked job tenant_id "indexed" : KeepsLinks env _).meets t
      refine Meets.bind (P := fun _ t' => Stays t t') ⟨hmark.1, Meets.stays hmark⟩
        (fun document t' ht' => meets_pure.2 ?_) ?_
      · rintro _ _ m heq hm
        cases heq
        exact (Noted.of_get hm).stays ht'
      · rintro _ _ _ _ _ _ ⟨⟩
    · rintro _ _ _ _ _ _ ⟨⟩
  refine hmarked.bind ?_ fun _ _ _ => trivial
  rintro ⟨document, manifest⟩ t hnoted
  cases document with
  | none => exact meets_pure.2 trivial
  | some document =>
    refine past_links (links_of_writes (K := []) (writes_list_chunks _ _) (by simp) (by simp)
      (by simp) t) fun existing t' ht' => meets_ite.2 ⟨fun _ => ?_, fun _ => meets_pure.2 trivial⟩
    exact index_document.linked document tenant_id
      fun m hm => (hnoted _ manifest m rfl hm).stays ht'

theorem fail_parse.linked (job : Job) (tenant_id error_code : String) :
    KeepsLinks env (fail_parse env job tenant_id error_code) :=
  keeps_ite (keeps_bind (change_manifest.linked (failed_manifest.small env _) _ _) fun _ =>
    keeps_bind (mark_document.linked _ _ _) fun _ => keeps_pure _) (keeps_pure _)

theorem begin_run.linked (job_id tenant_id : String) :
    KeepsLinks env (begin_run env job_id tenant_id) := by
  have hstart : ∀ job, KeepsLinks env (start_parse env job tenant_id) := fun job =>
    keeps_ite (keeps_bind (change_manifest.linked (started_manifest.small env) _ _) fun _ =>
      keeps_links (K := []) (writes_quiet fun s => .metrics s _) (by simp) (by simp) (by simp))
      (keeps_pure _)
  have hplain : ∀ {α : Type} {m : Act α}, Writes [.jobs] m → KeepsLinks env m := fun h =>
    keeps_links h (by simp) (by simp) (by simp)
  refine keeps_bind (hplain (writes_require_job _ _)) fun job =>
    keeps_bind (hplain ?_) fun job => ?_
  · exact keeps_ite (keeps_bind (writes_new_thread_id env _) fun _ =>
      writes_persist_job (by simp) _) (keeps_pure _)
  · refine keeps_bind (hplain ?_) fun job => keeps_bind (hstart _) fun _ =>
      keeps_bind (keeps_ite (keeps_pure _) (keeps_raise _)) fun _ => keeps_pure _
    exact keeps_ite (keeps_bind (writes_transition env (by simp) _ _ _) fun _ =>
      keeps_bind (writes_checkpoint env _ _ _ _ _ _) fun _ => keeps_pure _) (keeps_pure _)

theorem fail_job.linked (job : Job) (tenant_id : String) (force_error_code : Option String) :
    KeepsLinks env (fail_job env job tenant_id force_error_code) := by
  have hplain : ∀ {α : Type} {m : Act α}, Writes [.jobs, .dlq] m → KeepsLinks env m := fun h =>
    keeps_links h (by simp) (by simp) (by simp)
  have hmove : ∀ status, Writes [.jobs, .dlq]
      (transition_job_status env job.job_id status (some tenant_id)) := fun status =>
    writes_transition env (by simp) _ _ _
  refine keeps_bind (hplain ?_) fun (item, failed) => keeps_bind (fail_parse.linked _ _ _)
    fun _ => keeps_bind (hplain (writes_checkpoint env _ _ _ _ _ _)) fun _ => keeps_pure _
  refine keeps_bind (hmove _) fun _ => keeps_bind (hmove _) fun _ =>
    keeps_bind (writes_seed_dlq_item env (by simp) _ _ _ _) fun item =>
      keeps_bind (hmove _) fun failed => ?_
  exact keeps_bind (writes_utcnow env) fun _ =>
    keeps_bind (writes_persist_job (by simp) _) fun _ => keeps_pure _

theorem retry_job.linked (job : Job) (tenant_id error_code : String) :
    KeepsLinks env (retry_job env job tenant_id error_code) := by
  have hplain : ∀ {α : Type} {m : Act α}, Writes [.jobs] m → KeepsLinks env m := fun h =>
    keeps_links h (by simp) (by simp) (by simp)
  have hchange : KeepsLinks env (change_parse_manifest job tenant_id (retry_manifest error_code)) :=
    keeps_ite (change_manifest.linked (retry_manifest.small _) _ _) (keeps_pure _)
  refine keeps_bind (hplain (writes_transition env (by simp) _ _ _)) fun retried => ?_
  refine keeps_bind (hplain (writes_utcnow env)) fun now =>
    keeps_bind (hplain (writes_utcnow env)) fun at_ => ?_
  refine keeps_bind (hplain (writes_persist_job (by simp) _)) fun retried => ?_
  exact keeps_bind hchange fun _ =>
    keeps_bind (hplain (writes_checkpoint env _ _ _ _ _ _)) fun _ => keeps_pure _

theorem succeed_job.linked (job : Job) (tenant_id : String) :
    KeepsLinks env (succeed_job env job tenant_id) := by
  have hplain : ∀ {α : Type} {m : Act α}, Writes [.jobs] m → KeepsLinks env m := fun h =>
    keeps_links h (by simp) (by simp) (by simp)
  refine keeps_bind (hplain (keeps_bind (writes_transition env (by simp) _ _ _) fun _ =>
    writes_persist_job (by simp) _)) fun succeeded => ?_
  exact keeps_bind (keeps_ite (index_parsed.linked _ _) (keeps_pure _)) fun _ =>
    keeps_bind (hplain (writes_checkpoint env _ _ _ _ _ _)) fun _ => keeps_pure _

theorem run_job_once.linked (job_id tenant_id : String) (flags : RunFlags) :
    KeepsLinks env (run_job_once env job_id tenant_id flags) := by
  refine keeps_bind (keeps_bind (begin_run.linked _ _) fun job => ?_) fun _ =>
    keeps_links (K := []) (keeps_bind (writes_save_state env) fun _ => keeps_pure _) (by simp)
      (by simp) (by simp)
  refine keeps_ite (fail_job.linked _ _ _) (keeps_ite (keeps_ite ?_ (fail_job.linked _ _ _)) ?_)
  · exact retry_job.linked _ _ _
  · unfold run_by_type
    split
    · exact keeps_links (K := [.jobs, .tokens, .reports, .interrupted, .sources])
        (writes_evaluation_run env (by simp) (by simp) (by simp) (by simp) (by simp) _ _) (by simp)
        (by simp) (by simp)
    · exact keeps_links (K := [.jobs, .tokens, .reports, .interrupted])
        (writes_resume_run env (by simp) (by simp) (by simp) (by simp) _ _) (by simp) (by simp)
        (by simp)
    · exact succeed_job.linked _ _

/-! ## The creators -/

/-- Each job has a drawn name, and each manifest a job. -/
structure Ready (env : Env) (w : World) : Prop where
  jobs : ∀ id job, w.store.jobs.get? id = some job → DrawnBefore env "job_" w.draws id
  manifests : ∀ id manifest, w.store.parse_manifests.get? id = some manifest →
    (w.store.jobs.get? id).isSome

theorem Ready.unmoved (h : Ready env w) (hs : Unmoved w w') : Ready env w' := by
  constructor
  · intro id job hjob
    rw [hs.jobs] at hjob
    exact (h.jobs id job hjob).mono hs.draws
  · intro id manifest hmanifest
    rw [hs.manifests] at hmanifest
    rw [hs.jobs]
    exact h.manifests id manifest hmanifest

/-- A name that is drawn now is that of no job and of no manifest. -/
theorem Ready.fresh (h : Ready env w) :
    w.store.jobs.get? ("job_" ++ env.uuid4.hex12 w.draws) = none ∧
      w.store.parse_manifests.get? ("job_" ++ env.uuid4.hex12 w.draws) = none := by
  have hjob : w.store.jobs.get? ("job_" ++ env.uuid4.hex12 w.draws) = none := by
    by_contra hne
    obtain ⟨job, hjob⟩ := Option.ne_none_iff_exists'.1 hne
    exact undrawn (h.jobs _ job hjob)
  refine ⟨hjob, ?_⟩
  by_contra hne
  obtain ⟨manifest, hmanifest⟩ := Option.ne_none_iff_exists'.1 hne
  have hsome := h.manifests _ manifest hmanifest
  rw [hjob] at hsome
  cases hsome

/-- Go past a draw. The name is the one of this state. -/
theorem past_uuid4 {f : String → Act β}
    (hf : ∀ t, w.draws < t.draws → Untouched w t → Links env (f (env.uuid4.hex12 w.draws)) t) :
    Links env (uuid4_hex12 env >>= f) w := by
  have hnoise : Links env (uuid4_hex12 env) w :=
    links_of_writes (writes_uuid4 env (K := [])) (by simp) (by simp) (by simp) w
  refine Meets.bind (P := fun r t => r = .ok (env.uuid4.hex12 w.draws) ∧ w.draws < t.draws ∧
    Untouched w t) ⟨hnoise.1, rfl, Nat.lt_succ_self _, untouched_final (writes_uuid4 env) w⟩ ?_
    fun _ _ _ => trivial
  rintro hex t ⟨⟨⟩, hdraws, ht⟩
  exact hf t hdraws ht

/-- Go past the write of a job. It is stored from then on. -/
theorem past_job {job : Job} {f : Job → Act β}
    (hf : ∀ t, t.store.jobs.get? job.job_id = some job →
      t.store.documents = w.store.documents → t.store.parse_manifests = w.store.parse_manifests →
      Links env (f job) t) :
    Links env (persist_job job >>= f) w := by
  simp only [persist_job, update, meets_bind, meets_write, then_ok, meets_pure]
  exact ⟨.aside rfl rfl rfl, hf _ (Table.get?_put_self _ _) rfl rfl⟩

/-- Go past the making of a manifest. -/
theorem past_new_manifest {job_id tenant_id : String} {document : Document}
    {f : ParseManifest → Act β}
    (hf : ∀ manifest t, Untouched w t → manifest.job_id = job_id →
      manifest.document_id = document.document_id → manifest.tenant_id = tenant_id →
      Links env (f manifest) t) :
    Links env (new_manifest env job_id tenant_id document >>= f) w := by
  have hwrites : Writes [] (new_manifest env job_id tenant_id document) :=
    keeps_bind (writes_uuid4 env) fun _ => keeps_pure _
  have hnoise : Links env (new_manifest env job_id tenant_id document) w :=
    links_of_writes hwrites (by simp) (by simp) (by simp) w
  refine Meets.bind (P := fun r t => Untouched w t ∧ ∀ manifest, r = .ok manifest →
    manifest.job_id = job_id ∧ manifest.document_id = document.document_id ∧
      manifest.tenant_id = tenant_id) ⟨hnoise.1, untouched_final hwrites w, ?_⟩ ?_
    fun _ _ _ => trivial
  · rintro manifest ⟨⟩
    exact ⟨rfl, rfl, rfl⟩
  · rintro manifest t ⟨ht, hof⟩
    obtain ⟨hjob, hdocument, htenant⟩ := hof manifest rfl
    exact hf manifest t ht hjob hdocument htenant

theorem create_parse_job.linked (hw : Ready env w) (document_id trace_id tenant_id : String) :
    Links env (create_parse_job env document_id trace_id tenant_id) w := by
  refine links_saving (past_document (meets_raise.2 trivial) fun document hdocument htenant => ?_)
  have hid := w.store.documents.key_of_get? hdocument
  refine past_uuid4 fun t₁ _ ht₁ => past_noise (writes_new_thread_id env _)
    fun thread_id t₂ ht₂ => ?_
  have hthen := ht₁.trans ht₂
  refine past_job fun t₃ hjob hdocuments₃ hmanifests₃ => ?_
  refine past_new_manifest fun manifest t₄ ht₄ hof hfile howner => ?_
  have hdocument₄ : t₄.store.documents.get? document.document_id = some document := by
    rw [ht₄.documents, hdocuments₃, hthen.documents, hid]
    exact hdocument
  have hplan : Links env (persist_parse_manifest manifest) t₄ := by
    refine meets_write.2 ⟨.planned manifest ?_ ⟨?_, document, ?_, ?_⟩ rfl rfl rfl, trivial⟩
    · rw [hof, ht₄.manifests, hmanifests₃, hthen.manifests]
      exact hw.fresh.2
    · exact ⟨_, by rw [hof, ht₄.jobs, hjob], rfl, hid.symm.trans hfile.symm, howner.symm⟩
    · rw [hfile]
      exact hdocument₄
    · exact htenant.trans howner.symm
  refine past_links hplan fun _ t₅ ht₅ => ?_
  have hkept : Kept t₄ document := ⟨document, hdocument₄, SameFile.refl document⟩
  refine past_links (remark_document.linked _ (hkept.stays ht₅)) fun _ t₆ _ => then_done ?_
  exact links_of_writes (K := [.outbox]) (writes_outbox env (by simp) _ _ _ _ _) (by simp)
    (by simp) (by simp) t₆

/-- The names of the documents were drawn. -/
def DocumentsDrawn (env : Env) (w : World) : Prop :=
  ∀ id document, w.store.documents.get? id = some document → DrawnBefore env "doc_" w.draws id

/-- A file that is no duplicate is the first of its content, if that has a sum. -/
theorem first_of_content {s : Store} {payload : UploadPayload}
    (h : duplicate_of s payload = none) :
    payload.file_sha256 ≠ "" → ∀ other ∈ s.documents.values,
      other.tenant_id = payload.tenant_id → other.file_sha256 ≠ payload.file_sha256 := by
  intro hsum other hother htenant hsame
  rw [duplicate_of, if_neg hsum, find_document_by_file_sha256, List.find?_eq_none] at h
  exact h other hother (by simp [htenant, hsame])

/-- Go past the filing of a new document. -/
theorem past_filing {document : Document} {f : Unit → Act β}
    (hid : DrawnBefore env "doc_" w.draws document.document_id)
    (hnew : w.store.documents.get? document.document_id = none)
    (hfirst : document.file_sha256 ≠ "" → ∀ other ∈ w.store.documents.values,
      other.tenant_id = document.tenant_id → other.file_sha256 ≠ document.file_sha256)
    (hf : ∀ t, Unmoved w t → Links env (f ()) t) :
    Links env (persist_document document >>= f) w := by
  refine Meets.bind (P := fun _ t => Unmoved w t) ⟨?_, ?_⟩ (fun _ t ht => hf t ht)
    fun _ _ _ => trivial
  · exact ⟨.filed document hid hnew hfirst rfl (chunks_of_persist document w) rfl, trivial⟩
  · exact unmoved_final (writes_persist_document (K := [.documents]) (by simp) _) (by simp)
      (by simp) w

/-- A file that no document of the tenant has yet is filed under a new name. -/
theorem create_upload_job.linked (hw : Ready env w) (hdrawn : DocumentsDrawn env w)
    (payload : UploadPayload) (has_file : Bool) :
    Links env (create_upload_job env payload has_file) w := by
  refine links_saving (past_read ?_)
  split
  · exact meets_pure.2 trivial
  · rename_i hnone
    have hput : ∀ document_id, Writes [] (put_upload env payload.tenant_id document_id has_file) :=
      fun _ => keeps_ite (keeps_bind (writes_put_held_object env _ _ _) fun _ => keeps_pure _)
        (keeps_pure _)
    refine past_uuid4 fun t₁ hdraws ht₁ => past_noise (hput _) fun storage_uri t₂ ht₂ => ?_
    have hthen := ht₁.trans ht₂
    have hdocuments := hthen.documents
    refine past_filing ⟨w.draws, Nat.lt_of_lt_of_le hdraws ht₂.draws, rfl⟩ ?_ ?_ fun t₃ ht₃ => ?_
    · rw [hdocuments]
      by_contra hne
      obtain ⟨document, hdocument⟩ := Option.ne_none_iff_exists'.1 hne
      exact undrawn (hdrawn _ document hdocument)
    · rw [hdocuments]
      exact first_of_content hnone
    · refine Meets.bind (P := fun _ t => Unmoved t₃ t) ⟨?_, ?_⟩ (fun _ t₄ ht₄ => ?_)
        fun _ _ _ => trivial
      · exact persist_document_chunks.linked payload.tenant_id _ [] t₃
      · exact unmoved_final (writes_persist_chunks env (K := [.chunks]) (by simp) _ _ _) (by simp)
          (by simp) t₃
      · exact then_done (create_parse_job.linked
          (hw.unmoved ((hthen.toUnmoved.trans ht₃).trans ht₄)) _ _ _)

/-- Every write of an operation is one. -/
theorem links_op (hw : Ready env w) (hdrawn : DocumentsDrawn env w) (op : Op) :
    Links env (op.act env) w := by
  have hplain : .documents ∉ kinds_of op → .chunks ∉ kinds_of op → .manifests ∉ kinds_of op →
      Links env (op.act env) w := fun hd hc hm => links_of_writes (writes_op env op) hd hc hm w
  cases op with
  | upload payload has_file => exact links_quiet (create_upload_job.linked hw hdrawn _ _)
  | create_parse_job document_id trace_id tenant_id =>
    exact links_quiet (create_parse_job.linked hw _ _ _)
  | run_job_once job_id tenant_id flags =>
    exact links_quiet ((run_job_once.linked _ _ _).meets w)
  | execute_rollback release_id tenant_id trace_id trigger_gate =>
    refine links_saving ?_
    cases trigger_gate with
    | none => exact meets_pure.2 trivial
    | some gate =>
      have haudit : ∀ action details,
          KeepsLinks env (append_audit_log env tenant_id action details) := fun _ _ =>
        keeps_links (writes_audit (K := []) env _ _ _) (by simp) (by simp) (by simp)
      refine past_links ((haudit _ _).meets w) fun _ t₁ _ => past_noise (writes_uuid4 env)
        fun hex t₂ _ => past_noise (writes_new_thread_id env _) fun thread_id t₃ _ =>
          past_job fun t₄ _ _ _ => ?_
      exact past_links ((run_job_once.linked _ _ _).meets t₄) fun _ t₅ _ => (haudit _ _).meets t₅
  | _ => exact hplain (by simp [kinds_of]) (by simp [kinds_of]) (by simp [kinds_of])

end bid_evaluation.links
