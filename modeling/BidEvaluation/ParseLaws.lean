-- The laws of a parse job. A job that succeeded should have chunks in the
-- store and in the index. The job and its document get their last status
-- before the parser starts, and neither is taken back when it fails.
import BidEvaluation.Endings

open dict_lib stepwise bid_evaluation.values bid_evaluation.core bid_evaluation.store_ops
  bid_evaluation.store_admin bid_evaluation.store_retrieval bid_evaluation.store_parse
  bid_evaluation.job_run bid_evaluation.operations bid_evaluation.frames
  bid_evaluation.job_steps bid_evaluation.run_steps bid_evaluation.op_steps
  bid_evaluation.job_laws bid_evaluation.endings

namespace bid_evaluation.parse_laws

variable {env : Env} {w w' : World}

/-! ## The shape of a chunk -/

theorem lookup_set (d : PyDict) (key a : String) (v : PyVal) :
    lookupEntry (d.set key v) a = if a = key then some v else lookupEntry d a :=
  lookupEntry_setEntry d key a v

theorem lookup_set_of_ne (d : PyDict) {key a : String} (v : PyVal) (h : a ≠ key) :
    lookupEntry (d.set key v) a = lookupEntry d a := by
  rw [lookup_set, if_neg h]

theorem lookup_setdefault_of_ne (d : PyDict) {key a : String} (v : PyVal) (h : a ≠ key) :
    lookupEntry (d.setdefault key v) a = lookupEntry d a := by
  unfold PyDict.setdefault
  split
  · rfl
  · exact lookup_set_of_ne d v h

theorem lookup_set_unless_of_ne (d : PyDict) {key a : String} (v : PyVal) (h : a ≠ key) :
    lookupEntry (set_unless_list d key v) a = lookupEntry d a := by
  unfold set_unless_list
  split
  · rfl
  · exact lookup_set_of_ne d v h

/-- The list is set, or it was there. -/
theorem lookup_set_unless (d : PyDict) (key : String) (v : PyVal) :
    lookupEntry (set_unless_list d key v) key = some v ∨ set_unless_list d key v = d := by
  unfold set_unless_list
  split
  · exact .inr rfl
  · left
    rw [lookup_set, if_pos rfl]

theorem lookup_set_any_list_of_ne (d : PyDict) {key a : String} (h : a ≠ key) :
    lookupEntry (set_unless_any_list d key) a = lookupEntry d a := by
  unfold set_unless_any_list
  split
  · rfl
  · exact lookup_set_of_ne d _ h

theorem lookup_set_truthy_of_ne (d : PyDict) {key a : String} (v : PyVal) (h : a ≠ key) :
    lookupEntry (set_unless_truthy d key v) a = lookupEntry d a := by
  unfold set_unless_truthy
  split
  · rfl
  · exact lookup_set_of_ne d v h

/-- The page and the box of the chunk can be read. -/
def Shaped (env : Env) (chunk : PyDict) : Prop :=
  ∃ page bbox, extract_page_and_bbox env chunk = .ok (page, bbox)

theorem page_readable {d : PyDict} {n : Int} (h : lookupEntry d "page" = some (.int n)) :
    ∃ r, page_and_bbox env d = .ok r := by
  have hpage : ∃ page, ((d.get "page").or (.int 1)).toInt = .ok page := by
    unfold PyDict.get PyDict.getD PyVal.or
    rw [h]
    dsimp only [Option.getD_some]
    split
    · exact ⟨n, rfl⟩
    · exact ⟨1, rfl⟩
  obtain ⟨page, hpage⟩ := hpage
  unfold page_and_bbox
  rw [hpage]
  split
  · exact ⟨_, rfl⟩
  · exact ⟨_, rfl⟩

/-- A chunk is shaped when its own page and that of its first position can
be read. -/
theorem shaped_of_pages {chunk : PyDict}
    (hfirst : ∀ first, first_position chunk = some first → ∃ r, page_and_bbox env first = .ok r)
    (hown : ∃ r, page_and_bbox env chunk = .ok r) : Shaped env chunk := by
  obtain ⟨⟨page, bbox⟩, hown⟩ := hown
  unfold Shaped extract_page_and_bbox
  rcases hposition : first_position chunk with _ | first
  · exact ⟨page, bbox.getD unit_bbox, by simp [hown, bind, Except.bind, pure, Except.pure]⟩
  · obtain ⟨⟨page', bbox'⟩, hread⟩ := hfirst first hposition
    rcases bbox' with _ | box
    · exact ⟨page, bbox.getD unit_bbox, by simp [hread, hown, bind, Except.bind, pure, Except.pure]⟩
    · exact ⟨page', box, by simp [hread, bind, Except.bind, pure, Except.pure]⟩

theorem first_readable {chunk : PyDict} (h : Shaped env chunk) :
    ∀ first, first_position chunk = some first → ∃ r, page_and_bbox env first = .ok r := by
  intro first hfirst
  obtain ⟨page, bbox, h⟩ := h
  unfold extract_page_and_bbox at h
  rw [hfirst] at h
  rcases hread : page_and_bbox env first with e | r
  · dsimp only at h
    rw [hread] at h
    cases h
  · exact ⟨r, rfl⟩

theorem shape_returns {chunk : PyDict} (document_id : String) (h : Shaped env chunk) :
    ∃ item, ensure_chunk_shape env document_id chunk = .ok item := by
  obtain ⟨page, bbox, h⟩ := h
  unfold ensure_chunk_shape
  rw [h]
  exact ⟨_, rfl⟩

/-- What comes out of `ensure_chunk_shape` can go in again. -/
theorem shaped_of_ensure {chunk item : PyDict} {document_id : String}
    (h : ensure_chunk_shape env document_id chunk = .ok item) : Shaped env item := by
  have hshaped : Shaped env chunk := by
    rcases hread : extract_page_and_bbox env chunk with e | ⟨page, bbox⟩
    · unfold ensure_chunk_shape at h
      rw [hread] at h
      cases h
    · exact ⟨page, bbox, hread⟩
  have hfirst := first_readable hshaped
  obtain ⟨page, bbox, hread⟩ := hshaped
  unfold ensure_chunk_shape at h
  rw [hread] at h
  dsimp only [bind, Except.bind, pure, Except.pure] at h
  cases h
  refine shaped_of_pages (fun first hposition => ?_) (page_readable (n := page) ?_)
  · unfold first_position PyDict.getD at hposition
    simp (disch := decide) only [lookup_setdefault_of_ne, lookup_set_any_list_of_ne,
      lookup_set_unless_of_ne _ _ (by decide : "positions" ≠ "pages")] at hposition
    rcases lookup_set_unless _ _ _ with hset | hsame
    · rw [hset] at hposition
      cases hposition
      exact page_readable (n := page) rfl
    · rw [hsame] at hposition
      simp (disch := decide) only [lookup_set_truthy_of_ne, lookup_set_of_ne] at hposition
      exact hfirst first hposition
  · simp (disch := decide) only [lookup_setdefault_of_ne, lookup_set_any_list_of_ne,
      lookup_set_unless_of_ne, lookup_set_truthy_of_ne, lookup_set_of_ne]
    exact lookup_set _ _ _ _

/-! ## The parser -/

/-- Chunks that can be stored and registered. -/
def Usable (env : Env) (chunks : List PyDict) : Prop :=
  chunks ≠ [] ∧ ∀ chunk ∈ chunks, Shaped env chunk

theorem shaped_of_mapM {raw chunks : List PyDict} {document_id : String}
    (h : raw.mapM (ensure_chunk_shape env document_id) = .ok chunks) :
    ∀ chunk ∈ chunks, Shaped env chunk := by
  induction raw generalizing chunks with
  | nil =>
    cases h
    intro chunk hin
    cases hin
  | cons first rest ih =>
    rw [List.mapM_cons] at h
    rcases hfirst : ensure_chunk_shape env document_id first with e | item
    · rw [hfirst] at h
      cases h
    · rcases hrest : rest.mapM (ensure_chunk_shape env document_id) with e | items
      · rw [hfirst, hrest] at h
        cases h
      · rw [hfirst, hrest] at h
        cases h
        intro chunk hin
        rcases List.mem_cons.1 hin with heq | hin
        · exact heq ▸ shaped_of_ensure hfirst
        · exact ih hrest chunk hin

theorem local_chunks_usable {raw chunks : List PyDict} {document_id : String}
    (h : local_chunks env document_id raw = some chunks) : Usable env chunks := by
  unfold local_chunks at h
  split at h
  · cases h
  · rename_i chunks' hno hraw
    cases h
    exact ⟨hno, shaped_of_mapM hraw⟩
  · cases h

theorem parse_by_route.spec (document_id : String) (manifest : Option ParseManifest) (w : World) :
    Meets AnyStep (parse_by_route env document_id manifest) w
      (fun r _ => ∀ parsed, r = .ok parsed → Usable env parsed) := by
  unfold parse_by_route
  refine past_parts (K := []) (touches_candidates env _ _ _) (fun chunk t _ => ?_)
    (by rintro e t - parsed ⟨⟩)
  rw [meets_bind, meets_lift]
  rcases hchunk : ensure_chunk_shape env document_id chunk with e | item
  · rintro parsed ⟨⟩
  · have husable : Usable env [item] := by
      refine ⟨List.cons_ne_nil _ _, fun chunk hin => ?_⟩
      rw [List.mem_singleton.1 hin]
      exact shaped_of_ensure hchunk
    simp only [then_ok, meets_ite, meets_bind, update, meets_write, meets_pure, any_step, true_and]
    refine ⟨fun _ => ?_, fun _ => ?_⟩
    · rintro parsed ⟨⟩
      exact husable
    · rintro parsed ⟨⟩
      exact husable

theorem parse_document_file.spec (document : Document) (tenant_id : String)
    (manifest : Option ParseManifest) (w : World) :
    Meets AnyStep (parse_document_file env document tenant_id manifest) w (fun r w' =>
      Frame [.chunks] w w' ∧ ∀ parsed, r = .ok parsed → Usable env parsed) := by
  have hframe := ends_touches (touches_parse_file env (K := [.chunks]) (by simp) document tenant_id
    manifest) w
  refine hframe.and ?_
  unfold parse_document_file
  refine past_parts (K := [.chunks]) (touches_mineru env (by simp) _ _ _) (fun _ t _ => ?_)
    (by rintro e t - parsed ⟨⟩)
  refine past_parts (K := []) touches_draw (fun n t' _ => ?_) (by rintro e t - parsed ⟨⟩)
  split
  · rename_i chunks hchunks
    rw [meets_pure]
    rintro parsed ⟨⟩
    exact local_chunks_usable hchunks
  · exact parse_by_route.spec _ _ t'

/-! ## The chunks are stored -/

theorem dedupe_returns {chunks : List PyDict} (document_id : String) (seen : List String)
    (h : ∀ chunk ∈ chunks, Shaped env chunk) :
    ∃ out, dedupe_chunks env document_id seen chunks = .ok out ∧
      ∀ chunk ∈ out, Shaped env chunk := by
  induction chunks generalizing seen with
  | nil => exact ⟨[], rfl, fun chunk hin => by cases hin⟩
  | cons chunk rest ih =>
    obtain ⟨item, hitem⟩ := shape_returns document_id (h chunk List.mem_cons_self)
    have hrest : ∀ c ∈ rest, Shaped env c := fun c hc => h c (List.mem_cons_of_mem _ hc)
    unfold dedupe_chunks
    rw [hitem]
    dsimp only [bind, Except.bind]
    split
    · exact ih _ hrest
    · obtain ⟨out, hout, hshaped⟩ :=
        ih (((item.getD "chunk_hash" (.str "")).toStr env.repr) :: seen) hrest
      rw [hout]
      refine ⟨item :: out, rfl, fun c hc => ?_⟩
      rcases List.mem_cons.1 hc with heq | hin
      · exact heq ▸ shaped_of_ensure hitem
      · exact hshaped c hin

/-- The first chunk has a hash that was not seen. -/
theorem dedupe_usable {chunks out : List PyDict} {document_id : String} (h : Usable env chunks)
    (hout : dedupe_chunks env document_id [] chunks = .ok out) : Usable env out := by
  obtain ⟨out', hout', hshaped⟩ := dedupe_returns document_id [] h.2
  rw [hout] at hout'
  cases hout'
  refine ⟨?_, hshaped⟩
  obtain ⟨chunk, rest, rfl⟩ := List.exists_cons_of_ne_nil h.1
  obtain ⟨item, hitem⟩ := shape_returns document_id (h.2 chunk List.mem_cons_self)
  unfold dedupe_chunks at hout
  rw [hitem] at hout
  dsimp only [bind, Except.bind] at hout
  rw [if_neg List.not_mem_nil] at hout
  split at hout
  · cases hout
  · cases hout
    exact List.cons_ne_nil _ _

theorem persist_document_chunks.spec {document : Document} {tenant_id : String}
    {parsed : List PyDict} (hown : OwnDocument w document.document_id tenant_id document)
    (hparsed : Usable env parsed) :
    Meets AnyStep (persist_document_chunks env tenant_id document.document_id parsed) w
      (fun r w' => ∃ chunks, r = .ok chunks ∧ Usable env chunks ∧
        chunksOf w' document.document_id = chunks ∧ Frame [.chunks] w w' ∧ w'.draws = w.draws) := by
  obtain ⟨out, hout, -⟩ := dedupe_returns document.document_id [] hparsed.2
  unfold persist_document_chunks replace_chunks
  simp only [meets_bind, meets_lift, hout, then_ok, meets_read, hown.found]
  rw [if_neg (not_not.2 hown.scope)]
  simp only [meets_bind, update, meets_write, then_ok, meets_pure, any_step, true_and]
  refine ⟨out, rfl, dedupe_usable hparsed hout, ?_, ⟨fun p hp => ?_, Nat.le_refl _⟩, trivial⟩
  · unfold chunksOf
    rw [Dict.get?_set_self]
    rfl
  · cases p <;> first | rfl | simp at hp

/-- The program returns, and neither changes a part nor draws. -/
def Quiet (w : World) (r : Except PyErr Unit) (w' : World) : Prop :=
  r = .ok () ∧ Frame [] w w' ∧ w'.draws = w.draws

theorem Quiet.trans {t t' : World} {r r' : Except PyErr Unit} (h : Quiet w r t)
    (h' : Quiet t r' t') : Quiet w r' t' :=
  ⟨h'.1, h.2.1.trans h'.2.1, h'.2.2.trans h.2.2⟩

theorem persist_counted.spec (manifest : Option ParseManifest) (parsed persisted : List PyDict)
    (w : World) : Meets AnyStep (persist_counted manifest parsed persisted) w (Quiet w) := by
  have hframe := ends_touches (touches_persist_counted (K := []) manifest parsed persisted) w
  have hdraws : Meets AnyStep (persist_counted manifest parsed persisted) w
      (fun r w' => r = .ok () ∧ w'.draws = w.draws) := by
    unfold persist_counted
    cases manifest with
    | none => exact meets_pure.2 ⟨rfl, rfl⟩
    | some manifest => simp [persist_parse_manifest, update]
  exact (hdraws.and hframe).post fun r w' h => ⟨h.1.1, h.2, h.1.2⟩

theorem register_citation_source.spec (chunk_id : String) (source : CitationSource) (w : World) :
    Meets AnyStep (register_citation_source env chunk_id source) w (Quiet w) := by
  have hframe := ends_touches (touches_register_source (K := []) env chunk_id source) w
  have hdraws : Meets AnyStep (register_citation_source env chunk_id source) w
      (fun r w' => r = .ok () ∧ w'.draws = w.draws) := by
    unfold register_citation_source saving save_state
    by_cases hpersistent : env.persistent = true
    · simp [hpersistent, update]
    · simp [hpersistent, update]
  exact (hdraws.and hframe).post fun r w' h => ⟨h.1.1, h.2, h.1.2⟩

/-- Chunks that are shaped are all registered. -/
theorem register_chunks.spec (document : Document) (tenant_id : String) {chunks : List PyDict}
    (h : ∀ chunk ∈ chunks, Shaped env chunk) (w : World) :
    Meets AnyStep (register_chunks env document tenant_id chunks) w (Quiet w) := by
  unfold register_chunks
  induction chunks generalizing w with
  | nil => exact meets_pure.2 ⟨rfl, Frame.refl w, rfl⟩
  | cons chunk rest ih =>
    obtain ⟨page, bbox, hread⟩ := h chunk List.mem_cons_self
    have hrest : ∀ c ∈ rest, Shaped env c := fun c hc => h c (List.mem_cons_of_mem _ hc)
    rw [List.foldlM_cons, meets_bind, meets_bind, meets_lift, hread, then_ok]
    refine (register_citation_source.spec _ _ w).post ?_
    rintro r t ⟨rfl, hquiet⟩
    exact (ih hrest t).post fun r' t' h' => Quiet.trans ⟨rfl, hquiet⟩ h'

/-! ## The index -/

/-- The index gets the chunks if both names are safe. -/
def Indexable (document : Document) (tenant_id : String) : Prop :=
  is_safe_id tenant_id = true ∧ is_safe_id document.project_id = true

/-- In this step the index got these chunks of the document, and no error. -/
def Indexed (w w' : World) (document_id : String) (chunks : List PyDict) : Prop :=
  w'.index_log = w.index_log ++ [⟨document_id, chunks, false⟩]

theorem not_indexed_of_same {document_id : String} {chunks : List PyDict}
    (h : w'.index_log = w.index_log) : ¬ Indexed w w' document_id chunks := by
  unfold Indexed
  rw [h]
  intro heq
  simpa using congrArg List.length heq

theorem indexed_iff_of_write {document_id : String} {chunks stored : List PyDict} {failed : Bool}
    (h : w'.index_log = w.index_log ++ [⟨document_id, chunks, failed⟩]) :
    Indexed w w' document_id stored ↔ stored = chunks ∧ failed = false := by
  unfold Indexed
  rw [h]
  simp [eq_comm]

theorem maybe_index.spec (document : Document) (tenant_id : String) {chunks : List PyDict}
    (hchunks : chunks ≠ []) (w : World) :
    Meets AnyStep (maybe_index_chunks_to_lightrag env tenant_id document.project_id
      document.document_id chunks) w (fun _ w' => Frame [.index] w w' ∧
        ∀ stored, Indexed w w' document.document_id stored ↔
          stored = chunks ∧ Indexable document tenant_id ∧
            env.index_answer w.draws = .written) := by
  have hframe := ends_touches (touches_index (K := [.index]) env (by simp) tenant_id
    document.project_id document.document_id chunks) w
  refine hframe.and ?_
  unfold maybe_index_chunks_to_lightrag retrieval_index_name validate_index_segment
  rw [if_neg hchunks]
  by_cases htenant : is_safe_id tenant_id = true
  · by_cases hproject : is_safe_id document.project_id = true
    · have hnames : Indexable document tenant_id := ⟨htenant, hproject⟩
      simp only [htenant, hproject, if_true, meets_bind, meets_pure, then_ok, update, draw,
        meets_write, meets_read, any_step, true_and]
      rcases hanswer : env.index_answer w.draws with _ | _ | e
      · simp only [log_index_write, meets_write, any_step, true_and]
        intro stored
        rw [indexed_iff_of_write rfl]
        simp [hnames]
      · simp only [log_index_write, meets_bind, meets_write, then_ok, any_step, true_and]
        intro stored
        rw [indexed_iff_of_write rfl]
        simp
      · simp only [log_index_write, meets_bind, meets_write, then_ok, meets_raise, any_step,
          true_and]
        intro stored
        rw [indexed_iff_of_write rfl]
        simp
    · simp only [htenant, hproject, if_true, if_false, meets_bind, meets_pure, then_ok, raise_api,
        meets_raise, then_error, Bool.false_eq_true]
      intro stored
      exact iff_of_false (not_indexed_of_same rfl) fun h => hproject h.2.1.2
  · simp only [htenant, if_false, meets_bind, raise_api, meets_raise, then_error,
      Bool.false_eq_true]
    intro stored
    exact iff_of_false (not_indexed_of_same rfl) fun h => htenant h.2.1.1

/-! ## The end of a parse job -/

/-- The parser returns, both names are safe, and the index answers. -/
def Delivers (env : Env) (document : Document) (tenant_id : String)
    (manifest : Option ParseManifest) (w : World) : Prop :=
  (∃ parsed, (parse_document_file env document tenant_id manifest).result w = .ok parsed) ∧
    Indexable document tenant_id ∧
    env.index_answer ((parse_document_file env document tenant_id manifest).final w).draws =
      .written

/-- The document has chunks, and in this step the index got them. -/
def Stocked (w w' : World) (document_id : String) : Prop :=
  chunksOf w' document_id ≠ [] ∧ Indexed w w' document_id (chunksOf w' document_id)

theorem chunksOf_frame {K : List Part} (hf : Frame K w w') (hK : .chunks ∉ K)
    (document_id : String) : chunksOf w' document_id = chunksOf w document_id := by
  have hsame : w'.store.document_chunks = w.store.document_chunks := hf.same .chunks hK
  unfold chunksOf
  rw [hsame]

theorem OwnDocument.frame {K : List Part} {document_id tenant_id : String} {document : Document}
    (h : OwnDocument w document_id tenant_id document) (hf : Frame K w w') (hK : .documents ∉ K) :
    OwnDocument w' document_id tenant_id document := by
  have hsame : w'.store.documents = w.store.documents := hf.same .documents hK
  exact ⟨hsame ▸ h.found, h.scope⟩

theorem index_document.spec {document : Document} {tenant_id : String}
    (manifest : Option ParseManifest)
    (hown : OwnDocument w document.document_id tenant_id document) :
    Meets AnyStep (index_document env document tenant_id manifest) w (fun _ w' =>
      Frame [.chunks, .index] w w' ∧
        (Stocked w w' document.document_id ↔ Delivers env document tenant_id manifest w)) := by
  have hframe := ends_touches (touches_index_document (K := [.chunks, .index]) env (by simp)
    (by simp) document tenant_id manifest) w
  refine hframe.and ?_
  have hkeeps : Keeps AnyStep (parse_document_file env document tenant_id manifest) :=
    keeps_true _
  have hparse := (parse_document_file.spec document tenant_id manifest w).and (hkeeps.ends w)
  unfold index_document
  refine hparse.bind ?_ ?_
  · rintro parsed t ⟨⟨hf, husable⟩, hresult, hfinal⟩
    have hown₁ := OwnDocument.frame hown hf (by simp)
    refine (persist_document_chunks.spec hown₁ (husable parsed rfl)).bind ?_
      (by rintro e t' ⟨chunks, he, -⟩; cases he)
    rintro chunks t₁ ⟨_, ⟨⟩, hchunks, hstored, hf₁, hdraws₁⟩
    refine (persist_counted.spec manifest parsed chunks t₁).bind ?_
      (by rintro e t' ⟨he, -⟩; cases he)
    rintro _ t₂ ⟨-, hf₂, hdraws₂⟩
    refine (register_chunks.spec document tenant_id hchunks.2 t₂).bind ?_
      (by rintro e t' ⟨he, -⟩; cases he)
    rintro _ t₃ ⟨-, hf₃, hdraws₃⟩
    refine (maybe_index.spec document tenant_id hchunks.1 t₃).post ?_
    rintro r t₄ ⟨hf₄, hindexed⟩
    have hkept : chunksOf t₄ document.document_id = chunks := by
      rw [chunksOf_frame ((hf₂.trans hf₃).mono (by simp) |>.trans hf₄) (by simp), hstored]
    have hlog : t₃.index_log = w.index_log :=
      ((hf.trans hf₁).trans ((hf₂.trans hf₃).mono (by simp))).same .index (by simp)
    have hdraws : t₃.draws = t.draws := hdraws₃.trans (hdraws₂.trans hdraws₁)
    have hstocked := hindexed chunks
    unfold Indexed at hstocked
    rw [hlog, hdraws] at hstocked
    unfold Stocked Indexed Delivers
    rw [hkept, hstocked, ← hresult, ← hfinal]
    simp [hchunks.1]
  · rintro e t ⟨⟨hf, -⟩, hresult, -⟩
    refine iff_of_false (fun h => not_indexed_of_same (hf.same .index (by simp)) h.2) ?_
    rintro ⟨⟨parsed, hparsed⟩, -⟩
    rw [hparsed] at hresult
    cases hresult

theorem mark_parsed.spec (job : Job) (tenant_id : String) (w : World) :
    Meets AnyStep (mark_parsed env job tenant_id) w (fun r w' =>
      Frame [.documents, .chunks] w w' ∧
        chunksOf w' job.resource_id = chunksOf w job.resource_id ∧
        Marked w w' job.resource_id tenant_id "indexed" ∧
        (∀ found, OwnDocument w job.resource_id tenant_id found →
          ∃ manifest, r = .ok (some { found with status := "indexed" }, manifest)) ∧
        ∀ document manifest, r = .ok (some document, manifest) →
          ∃ found, OwnDocument w job.resource_id tenant_id found ∧
            document = { found with status := "indexed" }) := by
  have hmanifest : ∀ manifest, Returns (succeeded_manifest env manifest) := fun _ =>
    returns_bind (returns_utcnow env) fun _ => returns_pure _
  unfold mark_parsed
  refine past_return (K := []) (touches_change_manifest (fun _ =>
    keeps_bind (touches_utcnow env) fun _ => keeps_pure _) _ _)
    (returns_change_manifest hmanifest _ _) fun _ t hf => ?_
  have hfrom : ∀ found, OwnDocument t job.resource_id tenant_id found ↔
      OwnDocument w job.resource_id tenant_id found := by
    have hsame : t.store.documents = w.store.documents := hf.same .documents (by simp)
    exact fun found => ⟨fun h => ⟨hsame ▸ h.found, h.scope⟩, fun h => ⟨hsame ▸ h.found, h.scope⟩⟩
  rw [meets_bind, meets_read, then_ok]
  have hmark := mark_document.spec job tenant_id "indexed" t
  refine hmark.bind ?_ ?_
  · rintro document t' ⟨hf', -, hchunks, hmarked, hown, hdocument⟩
    rw [meets_pure]
    refine ⟨(hf.mono (by simp)).trans hf', hchunks.trans (chunksOf_frame hf (by simp) _),
      .from hf (by simp) hmarked, fun found h => ?_, fun document' manifest' hr => ?_⟩
    · have hsome := hown found ((hfrom found).2 h)
      cases hsome
      exact ⟨_, rfl⟩
    · cases hr
      obtain ⟨found, h, heq⟩ := hdocument document' rfl
      exact ⟨found, (hfrom found).1 h, heq⟩
  · rintro e t' ⟨hf', -, hchunks, hmarked, hown, -⟩
    refine ⟨(hf.mono (by simp)).trans hf', hchunks.trans (chunksOf_frame hf (by simp) _),
      .from hf (by simp) hmarked, fun found h => ?_, fun document' manifest' hr => ?_⟩
    · cases hown found ((hfrom found).2 h)
    · cases hr

/-- The run gave a document its first chunks, and the index got them. -/
def Delivered (w w' : World) (document_id : String) : Prop :=
  chunksOf w document_id = [] ∧ Stocked w w' document_id

/-- A parse job that has moved, up to the end of its parser. -/
def mark_and_parse (env : Env) (job : Job) (tenant_id : String) : Act (List PyDict) := do
  let (document, manifest) ← mark_parsed env job tenant_id
  match document with
  | none => pure []
  | some document => parse_document_file env document tenant_id manifest

/-- The tenant has the document, which has no chunks, and both names are
safe. The parser ended with `r` in `t`: it returned, and the index will
answer. -/
def Deliverable (env : Env) (w : World) (document_id tenant_id : String)
    (r : Except PyErr (List PyDict)) (t : World) : Prop :=
  chunksOf w document_id = [] ∧
    (∃ found, OwnDocument w document_id tenant_id found ∧ Indexable found tenant_id) ∧
    (∃ parsed, r = .ok parsed) ∧ env.index_answer t.draws = .written

theorem list_chunks.spec {document : Document} {tenant_id : String}
    (hown : OwnDocument w document.document_id tenant_id document) :
    Meets AnyStep (list_document_chunks_for_tenant document.document_id tenant_id) w
      (fun r w' => r = .ok (chunksOf w document.document_id) ∧ w' = w) := by
  unfold list_document_chunks_for_tenant get_document_for_tenant assert_tenant_scope
  simp only [meets_bind, meets_read, then_ok, hown.found, hown.scope, ne_eq, not_true, if_false,
    meets_pure]
  exact ⟨rfl, trivial⟩

theorem index_parsed.spec (job : Job) (tenant_id : String) (w : World) :
    Meets AnyStep (index_parsed env job tenant_id) w (fun _ w' =>
      Delivered w w' job.resource_id ↔
        Deliverable env w job.resource_id tenant_id ((mark_and_parse env job tenant_id).result w)
          ((mark_and_parse env job tenant_id).final w)) := by
  have hkeeps : Keeps AnyStep (mark_parsed env job tenant_id) := keeps_true _
  unfold index_parsed
  refine ((mark_parsed.spec job tenant_id w).and (hkeeps.ends w)).bind ?_ ?_
  · rintro ⟨document, manifest⟩ t ⟨⟨hf, hchunks, hmarked, hown, hdocument⟩, hresult, rfl⟩
    have hlog := hf.same .index (by simp)
    cases document with
    | none =>
      refine meets_pure.2 (iff_of_false (fun h => not_indexed_of_same hlog h.2.2) ?_)
      rintro ⟨-, ⟨found, hfound, -⟩, -⟩
      obtain ⟨manifest', hsome⟩ := hown found hfound
      cases hsome
    | some document =>
      obtain ⟨found, hfound, heq⟩ := hdocument document manifest rfl
      have hkey : found.document_id = job.resource_id := Table.key_of_get? _ hfound.found
      have hid : document.document_id = job.resource_id := by
        rw [heq]
        exact hkey
      have hown' : OwnDocument ((mark_parsed env job tenant_id).final w) document.document_id
          tenant_id document := by
        refine ⟨?_, by rw [heq]; exact hfound.scope⟩
        unfold Marked at hmarked
        rw [hid, hmarked, hfound.found, Option.map_some, remark, if_pos hfound.scope, heq]
      refine (list_chunks.spec hown').bind ?_ (by rintro e t' ⟨he, -⟩; cases he)
      rintro _ t ⟨⟨⟩, rfl⟩
      rw [hid, hchunks]
      by_cases hfresh : chunksOf w job.resource_id = []
      · rw [if_pos hfresh]
        refine (index_document.spec manifest hown').post ?_
        rintro r w' ⟨-, hstocked⟩
        have hsame : Stocked w w' job.resource_id ↔
            Stocked ((mark_parsed env job tenant_id).final w) w' job.resource_id := by
          unfold Stocked Indexed
          rw [show ((mark_parsed env job tenant_id).final w).index_log = w.index_log from hlog]
        have hindexable : Indexable document tenant_id ↔ Indexable found tenant_id := by
          rw [heq]
          exact Iff.rfl
        have hparsed : (mark_and_parse env job tenant_id).result w = _ := result_bind hresult.symm
        have hafter : (mark_and_parse env job tenant_id).final w = _ := final_bind hresult.symm
        unfold Delivered Deliverable
        rw [hsame, ← hid, hstocked, hparsed, hafter, hid]
        unfold Delivers
        rw [hindexable]
        constructor
        · rintro ⟨-, hreturns, hnames, hanswer⟩
          exact ⟨hfresh, ⟨found, hfound, hnames⟩, hreturns, hanswer⟩
        · rintro ⟨-, ⟨found', hfound', hnames⟩, hreturns, hanswer⟩
          have hunique := hfound'.found
          rw [hfound.found] at hunique
          cases hunique
          exact ⟨hfresh, hreturns, hnames, hanswer⟩
      · rw [if_neg hfresh, meets_pure]
        exact iff_of_false (fun h => hfresh h.1) fun h => hfresh h.1
  · rintro e t ⟨⟨hf, -, -, hown, -⟩, hresult, -⟩
    refine iff_of_false (fun h => not_indexed_of_same (hf.same .index (by simp)) h.2.2) ?_
    rintro ⟨-, ⟨found, hfound, -⟩, -⟩
    obtain ⟨manifest, hsome⟩ := hown found hfound
    cases hsome

/-! ## The run of a parse job -/

def move_and_parse (env : Env) (job : Job) (tenant_id : String) : Act (List PyDict) := do
  let _ ← move_to_succeeded env job tenant_id
  mark_and_parse env job tenant_id

/-- A run of a parse job up to the end of its parser. -/
def run_until_parsed (env : Env) (job_id tenant_id : String) : Act (List PyDict) := do
  let job ← begin_run env job_id tenant_id
  move_and_parse env job tenant_id

/-- The parser and the index do their part in a run of the job. -/
def CanDeliver (env : Env) (w : World) (job : Job) (tenant_id : String) : Prop :=
  Deliverable env w job.resource_id tenant_id ((run_until_parsed env job.job_id tenant_id).result w)
    ((run_until_parsed env job.job_id tenant_id).final w)

theorem delivered_between {t t' : World} {document_id : String} (hf : Frame [.jobs] w t)
    (hf' : Frame [] t' w') : Delivered w w' document_id ↔ Delivered t t' document_id := by
  have hlog : t.index_log = w.index_log := hf.same .index (by simp)
  have hlog' : w'.index_log = t'.index_log := hf'.same .index (by simp)
  unfold Delivered Stocked Indexed
  rw [chunksOf_frame hf (by simp), chunksOf_frame hf' (by simp), hlog, hlog']

theorem deliverable_from {t t' : World} {document_id tenant_id : String}
    {r : Except PyErr (List PyDict)} (hf : Frame [.jobs] w t) :
    Deliverable env t document_id tenant_id r t' ↔
      Deliverable env w document_id tenant_id r t' := by
  have hown : ∀ found, OwnDocument t document_id tenant_id found ↔
      OwnDocument w document_id tenant_id found := by
    have hsame : t.store.documents = w.store.documents := hf.same .documents (by simp)
    exact fun found => ⟨fun h => ⟨hsame ▸ h.found, h.scope⟩, fun h => ⟨hsame ▸ h.found, h.scope⟩⟩
  unfold Deliverable
  rw [chunksOf_frame hf (by simp)]
  simp only [hown]

/-- The job has succeeded, and its document was delivered just when `can`. -/
def Reported (w w' : World) (job : Job) (can : Prop) : Prop :=
  (∃ job', w'.store.jobs.get? job.job_id = some job' ∧ job'.status = .succeeded) ∧
    (Delivered w w' job.resource_id ↔ can)

theorem succeed_parse.spec {job : Job} (htype : job.job_type = .parse) (tenant_id : String)
    (w : World) :
    Meets AnyStep (succeed_parse env job tenant_id) w (fun _ w' =>
      Frame [.documents, .chunks, .index] w w' ∧
        (Delivered w w' job.resource_id ↔
          Deliverable env w job.resource_id tenant_id ((mark_and_parse env job tenant_id).result w)
            ((mark_and_parse env job tenant_id).final w))) := by
  have hparts := ends_touches (touches_succeed_parse env (K := [.documents, .chunks, .index])
    (by simp) (by simp) (by simp) job tenant_id) w
  refine hparts.and ?_
  unfold succeed_parse
  rw [if_pos htype]
  exact index_parsed.spec job tenant_id w

theorem succeed_parse_job.spec {job : Job} {tenant_id : String}
    (hv : Visible w job (some tenant_id)) (hrunning : job.status = .running)
    (htype : job.job_type = .parse) :
    Meets AnyStep (succeed_job env job tenant_id) w (fun _ w' => Reported w w' job
      (Deliverable env w job.resource_id tenant_id ((move_and_parse env job tenant_id).result w)
        ((move_and_parse env job tenant_id).final w))) := by
  have hmove : Meets (Step env anyJob) (move_to_succeeded env job tenant_id) w _ :=
    move_to_succeeded.spec any_free hv hrunning
  have hkeeps : Keeps AnyStep (move_to_succeeded env job tenant_id) := keeps_true _
  unfold succeed_job
  refine ((meets_any hmove).and (hkeeps.ends w)).bind ?_
    (by rintro e t ⟨⟨job', he, -⟩, -⟩; cases he)
  rintro job₁ t₁ ⟨⟨_, ⟨⟩, hb₁, hsucceeded⟩, hresult, hfinal⟩
  have hparsed : (move_and_parse env job tenant_id).result w = _ := result_bind hresult.symm
  have hafter : (move_and_parse env job tenant_id).final w = _ := final_bind hresult.symm
  rw [hparsed, hafter, ← hfinal, ← deliverable_from hb₁.frame]
  have hreported : ∀ t t' can, Frame [.documents, .chunks, .index] t₁ t → Frame [] t t' →
      (Delivered t₁ t job.resource_id ↔ can) → Reported w t' job can := by
    intro t t' can hf hf' hdelivered
    refine ⟨⟨job₁, ?_, hsucceeded⟩, (delivered_between hb₁.frame hf').trans hdelivered⟩
    have hstored := (hb₁.stored.frame hf (by simp)).frame hf' (by simp)
    exact hb₁.same.job_id ▸ hstored
  refine (succeed_parse.spec htype tenant_id t₁).bind ?_ ?_
  · rintro _ t ⟨hf, hdelivered⟩
    refine past_return (K := []) (touches_checkpoint env _ _ _ _ _ _)
      (returns_checkpoint env _ _ _ _ _ _) fun _ t' hf' => ?_
    rw [meets_pure]
    exact hreported t t' _ hf hf' hdelivered
  · rintro e t ⟨hf, hdelivered⟩
    exact hreported t t _ hf (Frame.refl t) hdelivered

/-- A started run of a parse job that is not told to fail. -/
theorem parse_run.spec {job : Job} {tenant_id : String} {flags : RunFlags}
    (hv : Visible w job (some tenant_id)) (hstart : Startable job.status)
    (htype : job.job_type = .parse) (hflags : ¬ ToldToFail flags) :
    Meets AnyStep (run_job_once env job.job_id tenant_id flags) w
      (fun _ w' => Reported w w' job (CanDeliver env w job tenant_id)) := by
  have hbegin : Meets (Step env anyJob) (begin_run env job.job_id tenant_id) w _ :=
    begin_run.spec any_free w job.job_id tenant_id
  have hkeeps : Keeps AnyStep (begin_run env job.job_id tenant_id) := keeps_true _
  unfold run_job_once
  refine any_saving (((meets_any hbegin).and (hkeeps.ends w)).bind ?_ ?_) ?_
  · rintro job' t ⟨⟨hf, found, hid, hfound, -, hb, hrunning, -⟩, hresult, hfinal⟩
    cases hv.stored.unique hfound.stored hid
    have hrun : run_started env job' tenant_id flags = succeed_job env job' tenant_id := by
      rw [ToldToFail, not_or] at hflags
      unfold run_started run_by_type
      rw [if_neg hflags.1, if_neg hflags.2, hb.same.job_type, htype]
    rw [hrun]
    refine (succeed_parse_job.spec (hb.visible hv) hrunning (hb.same.job_type.trans htype)).post ?_
    rintro r w' ⟨hjob, hdelivered⟩
    have hparsed : (run_until_parsed env job.job_id tenant_id).result w = _ :=
      result_bind hresult.symm
    have hafter : (run_until_parsed env job.job_id tenant_id).final w = _ := final_bind hresult.symm
    rw [hb.same.resource_id, deliverable_from hf] at hdelivered
    rw [hb.same.job_id] at hjob
    unfold CanDeliver
    rw [hparsed, hafter, ← hfinal]
    exact ⟨hjob, (delivered_between hf (Frame.refl w')).trans hdelivered⟩
  · rintro e t ⟨⟨-, hno⟩, -⟩
    exact absurd hstart ((hno job rfl hv.stored).2 hv)
  · rintro result t t' ⟨⟨job', hjob, hstatus⟩, hdelivered⟩ hf
    have hsame : t'.store.jobs = t.store.jobs := hf.same .jobs (by simp)
    exact ⟨⟨job', hsame ▸ hjob, hstatus⟩, (delivered_between (Frame.refl w) hf).trans hdelivered⟩

/-! ## The laws -/

def JobSucceeded (w : World) (job_id : String) : Prop :=
  ∃ job, w.store.jobs.get? job_id = some job ∧ job.status = .succeeded

def DocumentIndexed (w : World) (document_id : String) : Prop :=
  ∃ document, w.store.documents.get? document_id = some document ∧ document.status = "indexed"

/-- After a run that returned or raised: a job that succeeded, or a document
that is indexed, was delivered in the run. -/
def SuccessIsDelivered (env : Env) (w : World) (job : Job) (tenant_id : String)
    (flags : RunFlags) : Prop :=
  let w' := (run_job_once env job.job_id tenant_id flags).final w
  JobSucceeded w' job.job_id ∨ DocumentIndexed w' job.resource_id → Delivered w w' job.resource_id

/-- What each kind of run needs. One that is told to fail marks the document
only if it gives up, and only a document of its tenant. -/
structure DeliversOrIsSilent (env : Env) (w : World) (job : Job) (tenant_id : String)
    (flags : RunFlags) : Prop where
  run : Visible w job (some tenant_id) → Startable job.status → ¬ ToldToFail flags →
    CanDeliver env w job tenant_id
  told_to_fail : Visible w job (some tenant_id) → Startable job.status → ToldToFail flags →
    ¬ DocumentIndexed w job.resource_id ∨ (Fails env flags job.retry_count ∧
      ∃ document, OwnDocument w job.resource_id tenant_id document)
  not_run : ¬ (Visible w job (some tenant_id) ∧ Startable job.status) →
    job.status ≠ .succeeded ∧ ¬ DocumentIndexed w job.resource_id

theorem indexed_iff_of_same {document_id : String}
    (h : w'.store.documents = w.store.documents) :
    DocumentIndexed w' document_id ↔ DocumentIndexed w document_id := by
  unfold DocumentIndexed
  rw [h]

/-- A failed run takes the status back from a document of its tenant. -/
theorem indexed_iff_of_failed {document_id tenant_id : String}
    (h : Marked w w' document_id tenant_id "parse_failed") :
    DocumentIndexed w' document_id ↔ DocumentIndexed w document_id ∧
      ¬ ∃ document, OwnDocument w document_id tenant_id document := by
  unfold DocumentIndexed
  unfold Marked at h
  rw [h]
  rcases hfound : w.store.documents.get? document_id with _ | found
  · simp
  · rw [Option.map_some]
    by_cases hscope : found.tenant_id = tenant_id
    · have hown : ∃ document, OwnDocument w document_id tenant_id document :=
        ⟨found, hfound, hscope⟩
      simp [remark, hscope, hown]
    · have hno : ¬ ∃ document, OwnDocument w document_id tenant_id document := by
        rintro ⟨document, hown⟩
        have hsame := hown.found
        rw [hfound] at hsame
        cases hsame
        exact hscope hown.scope
      simp [remark, hscope, hno]

theorem not_delivered_of_same {document_id : String} (h : w'.index_log = w.index_log) :
    ¬ Delivered w w' document_id := fun hd => not_indexed_of_same h hd.2.2

theorem run_delivers_iff {job : Job} {tenant_id : String} {flags : RunFlags}
    (hv : Visible w job (some tenant_id)) (hstart : Startable job.status)
    (htype : job.job_type = .parse) (hflags : ¬ ToldToFail flags) :
    SuccessIsDelivered env w job tenant_id flags ↔ CanDeliver env w job tenant_id := by
  obtain ⟨⟨job', hjob, hstatus⟩, hdelivered⟩ := (parse_run.spec hv hstart htype hflags).2
  constructor
  · intro h
    exact hdelivered.1 (h (.inl ⟨job', hjob, hstatus⟩))
  · intro hcan _
    exact hdelivered.2 hcan

/-- A run that delivers nothing must not report. -/
theorem silent_iff {job job' : Job} {K : List Part} {tenant_id : String} {flags : RunFlags}
    (hb : Became K w ((run_job_once env job.job_id tenant_id flags).final w) job job')
    (hK : .index ∉ K) :
    SuccessIsDelivered env w job tenant_id flags ↔ job'.status ≠ .succeeded ∧
      ¬ DocumentIndexed ((run_job_once env job.job_id tenant_id flags).final w)
        job.resource_id := by
  have hno :
      ¬ Delivered w ((run_job_once env job.job_id tenant_id flags).final w) job.resource_id :=
    not_delivered_of_same (hb.frame.same .index hK)
  have hjob : JobSucceeded ((run_job_once env job.job_id tenant_id flags).final w) job.job_id ↔
      job'.status = .succeeded := by
    have hfound := hb.stored
    unfold Stored at hfound
    rw [hb.same.job_id] at hfound
    unfold JobSucceeded
    rw [hfound]
    simp
  unfold SuccessIsDelivered
  dsimp only
  rw [hjob]
  tauto

theorem told_to_fail_delivers_iff {job : Job} {tenant_id : String} {flags : RunFlags}
    (hv : Visible w job (some tenant_id)) (hstart : Startable job.status)
    (htype : job.job_type = .parse) (hflags : ToldToFail flags) :
    SuccessIsDelivered env w job tenant_id flags ↔
      ¬ DocumentIndexed w job.resource_id ∨ (Fails env flags job.retry_count ∧
        ∃ document, OwnDocument w job.resource_id tenant_id document) := by
  obtain ⟨job', hb, hends⟩ := (told_to_fail_run.spec hv hstart hflags).2
  rw [silent_iff hb (by decide)]
  rcases hends with ⟨hstatus, hno, hdocuments⟩ | ⟨hstatus, hfails, hmarked⟩
  · rw [indexed_iff_of_same hdocuments]
    simp [hstatus, hno]
  · rw [indexed_iff_of_failed (hmarked htype)]
    simp only [hstatus, hfails]
    tauto

theorem not_run_delivers_iff {job : Job} {tenant_id : String} {flags : RunFlags}
    (hstored : Stored w job) (hno : ¬ (Visible w job (some tenant_id) ∧ Startable job.status)) :
    SuccessIsDelivered env w job tenant_id flags ↔
      job.status ≠ .succeeded ∧ ¬ DocumentIndexed w job.resource_id := by
  obtain ⟨-, job', hb, hstatus⟩ := (not_started_run.spec env flags hstored hno).2
  rw [silent_iff hb (by simp), indexed_iff_of_same (hb.frame.same .documents (by simp)), hstatus]

/-- A parse job reports success with its result exactly when the parser and
the index do their part, or nothing is reported. -/
theorem success_is_delivered_iff (env : Env) (w : World) (job : Job) (tenant_id : String)
    (flags : RunFlags) (hstored : Stored w job) (htype : job.job_type = .parse) :
    SuccessIsDelivered env w job tenant_id flags ↔
      DeliversOrIsSilent env w job tenant_id flags := by
  by_cases hstart : Visible w job (some tenant_id) ∧ Startable job.status
  · by_cases hflags : ToldToFail flags
    · rw [told_to_fail_delivers_iff hstart.1 hstart.2 htype hflags]
      constructor
      · intro h
        exact ⟨fun _ _ hno => absurd hflags hno, fun _ _ _ => h, fun hno => absurd hstart hno⟩
      · intro h
        exact h.told_to_fail hstart.1 hstart.2 hflags
    · rw [run_delivers_iff hstart.1 hstart.2 htype hflags]
      constructor
      · intro h
        exact ⟨fun _ _ _ => h, fun _ _ hyes => absurd hyes hflags, fun hno => absurd hstart hno⟩
      · intro h
        exact h.run hstart.1 hstart.2 hflags
  · rw [not_run_delivers_iff hstored hstart]
    constructor
    · intro h
      exact ⟨fun hv hs => absurd ⟨hv, hs⟩ hstart, fun hv hs => absurd ⟨hv, hs⟩ hstart, fun _ => h⟩
    · intro h
      exact h.not_run hstart

/-- A document with a stored file, and its parse job. -/
def uploaded (env : Env) : World := after env World.start [.upload bid_file true]

/-- The local parser finds a chunk in the file, and the index takes it. -/
theorem parsed_bid_is_delivered :
    ∃ job, (uploaded calm_env).store.jobs.get? "job_aa" = some job ∧
      SuccessIsDelivered calm_env (uploaded calm_env) job "tenant" RunFlags.default := by
  have hjob : ((uploaded calm_env).store.jobs.get? "job_aa").map
      (fun job => (job.job_type, job.resource_id, job.status)) =
        some (.parse, "doc_", .queued) := by decide +kernel
  have hdocument : ((uploaded calm_env).store.documents.get? "doc_").map
      (fun document => (document.tenant_id, document.project_id, document.status)) =
        some ("tenant", "project", "parse_queued") := by decide +kernel
  have hchunks : (chunksOf (uploaded calm_env) "doc_").length = 0 := by decide +kernel
  have hparsed : ((run_until_parsed calm_env "job_aa" "tenant").result (uploaded calm_env)).isOk =
      true := by decide +kernel
  obtain ⟨job, hfound, hfields⟩ := Option.map_eq_some_iff.1 hjob
  obtain ⟨document, hdoc, hnames⟩ := Option.map_eq_some_iff.1 hdocument
  simp only [Prod.mk.injEq] at hfields hnames
  obtain ⟨htype, hresource, hqueued⟩ := hfields
  obtain ⟨htenant, hproject, hmark⟩ := hnames
  have hid : job.job_id = "job_aa" := Table.key_of_get? _ hfound
  have hstored : Stored (uploaded calm_env) job := by
    unfold Stored
    rw [hid]
    exact hfound
  refine ⟨job, hfound, (success_is_delivered_iff calm_env _ job "tenant" _ hstored htype).2
    ⟨fun _ _ _ => ?_, fun _ _ hflags => ?_, fun _ => ?_⟩⟩
  · unfold CanDeliver
    rw [hid, hresource]
    refine ⟨List.length_eq_zero_iff.1 hchunks, ⟨document, ⟨hdoc, htenant⟩, by decide, ?_⟩, ?_, rfl⟩
    · rw [hproject]
      decide
    · rcases hr : (run_until_parsed calm_env "job_aa" "tenant").result (uploaded calm_env)
        with e | parsed
      · rw [hr] at hparsed
        cases hparsed
      · exact ⟨parsed, rfl⟩
  · rcases hflags with h | h <;> cases h
  · rw [hqueued, hresource]
    refine ⟨by decide, ?_⟩
    rintro ⟨document', hdoc', hindexed⟩
    rw [hdoc] at hdoc'
    cases hdoc'
    rw [hmark] at hindexed
    exact absurd hindexed (by decide)

def parser_error : ApiError := ⟨"DOC_PARSE_OUTPUT_NOT_FOUND", "no output", "permanent", false, 422⟩

/-- No parser gets anything out of the file. -/
def broken_parser_env : Env :=
  { calm_env with
    local_parse := fun _ => []
    adapter := fun _ => some (fun _ => .error (.api parser_error)) }

/-- The job of the same document succeeds, and there is no chunk. -/
theorem unparsed_bid_is_reported :
    ¬ ∀ job, (uploaded broken_parser_env).store.jobs.get? "job_aa" = some job →
      SuccessIsDelivered broken_parser_env (uploaded broken_parser_env) job "tenant"
        RunFlags.default := by
  have hjob : ((uploaded broken_parser_env).store.jobs.get? "job_aa").map
      (fun job => job.resource_id) = some "doc_" := by decide +kernel
  have hsucceeded : (((run_job_once broken_parser_env "job_aa" "tenant" RunFlags.default).final
      (uploaded broken_parser_env)).store.jobs.get? "job_aa").map (fun job => job.status) =
        some .succeeded := by decide +kernel
  have hchunks : (chunksOf ((run_job_once broken_parser_env "job_aa" "tenant"
      RunFlags.default).final (uploaded broken_parser_env)) "doc_").length = 0 := by decide +kernel
  obtain ⟨job, hfound, hresource⟩ := Option.map_eq_some_iff.1 hjob
  obtain ⟨job', hfound', hstatus⟩ := Option.map_eq_some_iff.1 hsucceeded
  have hid : job.job_id = "job_aa" := Table.key_of_get? _ hfound
  intro hlaw
  have hdelivered := hlaw job hfound
  unfold SuccessIsDelivered at hdelivered
  rw [hid, hresource] at hdelivered
  exact (hdelivered (.inl ⟨job', hfound', hstatus⟩)).2.1 (List.length_eq_zero_iff.1 hchunks)

end bid_evaluation.parse_laws
