-- The law of the document scope. The rows of the index and the citation
-- sources are filtered by it, and the hits of the structured query are not.
import BidEvaluation.Lib.KeyedMerge
import BidEvaluation.RetrievalSteps
import BidEvaluation.TermLaws

open dict_lib stepwise keyed_merge bid_evaluation.values bid_evaluation.core
  bid_evaluation.store_retrieval bid_evaluation.admin_store bid_evaluation.reranker
  bid_evaluation.retrieval bid_evaluation.retrieval_steps
open bid_evaluation.term_laws (Satisfies mem_with_terms)

namespace bid_evaluation.doc_scope_laws

variable {env : Env} {s : Store} {suppliers : List Supplier} {args : RetrievalArgs}
  {items candidates hits : List Item}

/-! ## Ids -/

/-- The id of an item as a set has it. -/
def key_of (item : Item) : HashKey := (hash_key item.chunk_id).toOption.getD .none

def AllHashable (items : List Item) : Prop := ∀ item ∈ items, Hashable item.chunk_id

theorem hash_key_of {item : Item} (h : Hashable item.chunk_id) :
    hash_key item.chunk_id = .ok (key_of item) := by
  obtain ⟨key, hkey⟩ := hash_key_yields.2 h
  unfold key_of
  rw [hkey]
  rfl

theorem keys_of (h : AllHashable items) : items.mapM (fun item => hash_key item.chunk_id) = .ok (items.map key_of) :=
  mapM_eq_ok fun item hin => hash_key_of (h item hin)

/-! ## The ids of the hits differ -/

theorem source_hit_id (ids : List String) (args : RetrievalArgs) (e : String × CitationSource) :
    Gives (source_hit ids args e) (fun o => ∀ item, o = some item → item.chunk_id = .str e.1) := by
  unfold source_hit
  dsimp only
  split
  · rw [gives_pure]
    simp
  · refine gives_bind fun metadata => ?_
    rw [gives_pure]
    rintro _ ⟨⟩
    rfl

/-- The sources that were found stand in the order of the dictionary. -/
theorem source_hit_ids (ids : List String) (args : RetrievalArgs) (entries : List (String × CitationSource)) :
    Gives (entries.mapM (source_hit ids args)) (fun found =>
      ((found.filterMap id).map Item.chunk_id).Sublist (entries.map fun e => .str e.1)) := by
  induction entries with
  | nil =>
    rw [List.mapM_nil, gives_pure]
    exact List.Sublist.refl _
  | cons e rest ih =>
    rw [List.mapM_cons]
    refine (source_hit_id ids args e).bind fun o ho => ih.bind fun found hfound => ?_
    rw [gives_pure]
    rcases o with _ | item
    · exact hfound.cons _
    · have hcons : (some item :: found).filterMap id = item :: found.filterMap id := rfl
      rw [hcons, List.map_cons, List.map_cons, ho item rfl]
      exact hfound.cons_cons _

/-- The ids that were seen are those of the hits, and all different. -/
structure Distinct (hits : Hits) : Prop where
  hashable : AllHashable hits.1
  seen : hits.2 = hits.1.map key_of
  nodup : hits.2.Nodup

theorem Distinct.append {hits : Hits} (h : Distinct hits) {item : Item} {key : HashKey}
    (hkey : hash_key item.chunk_id = .ok key) (hnew : key ∉ hits.2) :
    Distinct (hits.1 ++ [item], hits.2 ++ [key]) := by
  have hitem : key_of item = key := by
    unfold key_of
    rw [hkey]
    rfl
  constructor
  · intro a ha
    rcases List.mem_append.1 ha with ha | ha
    · exact h.hashable a ha
    · rw [List.mem_singleton.1 ha]
      exact hash_key_yields.1 ⟨key, hkey⟩
  · rw [List.map_append, ← h.seen, ← hitem]
    rfl
  · rw [List.nodup_append]
    refine ⟨h.nodup, List.nodup_singleton key, fun a ha b hb => ?_⟩
    rw [List.mem_singleton.1 hb]
    rintro rfl
    exact hnew ha

theorem chunk_hit_distinct (document : Document) (args : RetrievalArgs) {hits : Hits} (h : Distinct hits)
    (chunk : PyDict) : Gives (chunk_hit document args hits chunk) Distinct := by
  unfold chunk_hit
  dsimp only
  split
  · exact gives_pure.2 h
  · refine Gives.bind (P := fun key => hash_key (chunk.get "chunk_id") = .ok key) (fun _ hkey => hkey) ?_
    intro key hkey
    split
    · exact gives_pure.2 h
    · rename_i hnew
      refine gives_bind fun position => ?_
      rw [gives_pure]
      exact h.append hkey hnew

theorem document_hits_distinct (s : Store) (ids : List String) (args : RetrievalArgs) {hits : Hits}
    (h : Distinct hits) (e : String × List PyDict) : Gives (document_hits s ids args hits e) Distinct := by
  unfold document_hits
  split
  · exact gives_pure.2 h
  · split
    · exact gives_pure.2 h
    · exact gives_foldlM h fun hits chunk _ h => chunk_hit_distinct _ args h chunk

/-- The part of a structured query that comes after its suppliers. -/
def scan_hits (s : Store) (args : RetrievalArgs) (ids : List String) : Except PyErr (List Item) :=
  if ids = [] then pure []
  else do
    let found ← s.citation_sources.entries.mapM (source_hit ids args)
    let sources := found.filterMap id
    let seen ← sources.mapM (fun item => hash_key item.chunk_id)
    let hits ← s.document_chunks.entries.foldlM (document_hits s ids args) (sources, seen)
    pure hits.1

/-- The sources that were found are where the scan of the chunks starts. -/
theorem sources_distinct {s : Store} {found : List (Option Item)}
    (hfound : ((found.filterMap id).map Item.chunk_id).Sublist
      (s.citation_sources.entries.map fun e => .str e.1)) :
    Distinct (found.filterMap id, (found.filterMap id).map key_of) := by
  have hkeys : (found.filterMap id).map key_of =
      ((found.filterMap id).map Item.chunk_id).map fun x => (hash_key x).toOption.getD .none := by
    rw [List.map_map]
    rfl
  have hentries : ((s.citation_sources.entries.map fun e => PyVal.str e.1).map
      fun x => (hash_key x).toOption.getD .none).Nodup := by
    have htexts := s.citation_sources.keys_nodup.map (f := HashKey.text) fun _ _ h => HashKey.text.inj h
    rw [List.map_map] at htexts ⊢
    exact htexts
  refine ⟨fun item hin => ?_, rfl, ?_⟩
  · obtain ⟨e, -, heq⟩ := List.mem_map.1 (hfound.subset (List.mem_map_of_mem hin))
    rw [← heq]
    trivial
  · rw [hkeys]
    exact (hfound.map _).nodup hentries

theorem scan_hits_distinct (s : Store) (args : RetrievalArgs) (ids : List String) :
    Gives (scan_hits s args ids) (fun hits => AllHashable hits ∧ (hits.map key_of).Nodup) := by
  unfold scan_hits
  split
  · rw [gives_pure]
    exact ⟨fun item hin => (by cases hin), List.nodup_nil⟩
  · refine (source_hit_ids ids args s.citation_sources.entries).bind fun found hfound => ?_
    have hstart := sources_distinct hfound
    dsimp only
    rw [keys_of hstart.hashable]
    have hhits : Gives (s.document_chunks.entries.foldlM (document_hits s ids args)
        (found.filterMap id, (found.filterMap id).map key_of)) Distinct :=
      gives_foldlM hstart fun hits e _ h => document_hits_distinct s ids args h e
    refine hhits.bind fun hits h => ?_
    rw [gives_pure]
    exact ⟨h.hashable, h.seen ▸ h.nodup⟩

theorem query_structured_distinct (env : Env) (s : Store) (suppliers : List Supplier)
    (args : RetrievalArgs) (filters : PyDict) : Gives (query_structured env s suppliers args filters)
      (fun hits => AllHashable hits ∧ (hits.map key_of).Nodup) :=
  gives_bind fun ids => scan_hits_distinct s args ids

/-! ## The merge of the hits -/

def lower_score (c hit : Item) : Bool := c.score_raw < hit.score_raw

theorem merge_hit_eq {found : Hits} {hit : Item} (hfound : AllHashable found.1)
    (hhit : Hashable hit.chunk_id) : merge_hit found hit = .ok (merge key_of lower_score found hit) := by
  unfold merge_hit merge
  rw [hash_key_of hhit]
  by_cases hseen : key_of hit ∈ found.2
  · have hcandidates : found.1.mapM (fun c => do
        let cid ← hash_key c.chunk_id
        pure (if cid = key_of hit ∧ c.score_raw < hit.score_raw then hit else c)) =
          (.ok (found.1.map fun c => if key_of c = key_of hit ∧ lower_score c hit then hit else c) :
            Except PyErr (List Item)) := by
      apply mapM_eq_ok
      intro c hc
      rw [hash_key_of (hfound c hc)]
      simp only [lower_score, decide_eq_true_eq]
      rfl
    rw [if_pos hseen]
    change (if key_of hit ∈ found.2 then _ else _) = _
    rw [if_pos hseen, hcandidates]
    rfl
  · rw [if_neg hseen]
    change (if key_of hit ∈ found.2 then _ else _) = _
    rw [if_neg hseen]
    rfl

theorem merge_hashable {found : Hits} {hit : Item} (hfound : AllHashable found.1)
    (hhit : Hashable hit.chunk_id) : AllHashable (merge key_of lower_score found hit).1 := by
  unfold merge
  split
  · intro item hin
    obtain ⟨c, hc, rfl⟩ := List.mem_map.1 hin
    split
    · exact hhit
    · exact hfound c hc
  · intro item hin
    rcases List.mem_append.1 hin with hin | hin
    · exact hfound item hin
    · rw [List.mem_singleton.1 hin]
      exact hhit

theorem merge_hits_eq {found : Hits} (hfound : AllHashable found.1) (hhits : AllHashable hits) :
    hits.foldlM merge_hit found = .ok (hits.foldl (merge key_of lower_score) found) := by
  induction hits generalizing found with
  | nil => rfl
  | cons hit rest ih =>
    have hhit := hhits hit List.mem_cons_self
    rw [List.foldlM_cons, merge_hit_eq hfound hhit, List.foldl_cons]
    exact ih (merge_hashable hfound hhit) fun item hin => hhits item (List.mem_cons_of_mem _ hin)

/-- The query has filters, and these are its hits. -/
structure HitsOf (env : Env) (s : Store) (suppliers : List Supplier) (args : RetrievalArgs)
    (hits : List Item) : Prop where
  filtered : args.structured_filters.truthy = true
  found : ∃ filters, validate_structured_filters args.structured_filters = .ok filters ∧
    filters ≠ [] ∧ query_structured env s suppliers args filters = .ok hits

theorem HitsOf.distinct (h : HitsOf env s suppliers args hits) :
    AllHashable hits ∧ (hits.map key_of).Nodup := by
  obtain ⟨filters, -, -, hquery⟩ := h.found
  exact query_structured_distinct env s suppliers args filters hits hquery

theorem with_structured_hits (h : HitsOf env s suppliers args hits) (hcandidates : AllHashable candidates) :
    with_structured env s suppliers args candidates =
      .ok (mergeAll key_of lower_score candidates hits).1 := by
  have hhits := h.distinct.1
  obtain ⟨hfiltered, filters, hvalid, hsome, hquery⟩ := h
  unfold with_structured
  rw [hfiltered, if_neg (by decide), hvalid]
  change (if filters = [] then _ else _) = _
  rw [if_neg hsome, hquery]
  change ((candidates.mapM fun c => hash_key c.chunk_id) >>= _) = _
  rw [keys_of hcandidates]
  change (hits.foldlM merge_hit _ >>= _) = _
  rw [merge_hits_eq hcandidates hhits]
  rfl

/-- A merge that returns merged hits, or had none to merge. -/
theorem with_structured_cases {merged : List Item}
    (h : with_structured env s suppliers args candidates = .ok merged) :
    merged = candidates ∨ AllHashable candidates ∧ ∃ hits, HitsOf env s suppliers args hits := by
  unfold with_structured at h
  split at h
  · exact .inl (Except.ok.inj h).symm
  · rename_i hfiltered
    rw [Bool.not_eq_false] at hfiltered
    rcases hvalid : validate_structured_filters args.structured_filters with e | filters
    · rw [hvalid] at h
      cases h
    · rw [hvalid] at h
      change (if filters = [] then _ else _) = _ at h
      split at h
      · exact .inl (Except.ok.inj h).symm
      · rename_i hsome
        rcases hquery : query_structured env s suppliers args filters with e | hits
        · rw [hquery] at h
          cases h
        · rw [hquery] at h
          change ((candidates.mapM fun c => hash_key c.chunk_id) >>= _) = _ at h
          have hyields : Yields (candidates.mapM fun c => hash_key c.chunk_id) := by
            by_contra hno
            rcases hkeys : candidates.mapM fun c => hash_key c.chunk_id with e | keys
            · rw [hkeys] at h
              cases h
            · exact hno ⟨keys, hkeys⟩
          refine .inr ⟨fun c hc => ?_, hits, hfiltered, filters, hvalid, hsome, hquery⟩
          exact hash_key_yields.1 (yields_mapM.1 hyields c hc)

/-! ## The filters of the other branches -/

theorem index_row_in_scope (env : Env) (args : RetrievalArgs) (row : PyVal) :
    Gives (index_row env args row)
      (fun o => ∀ item, o = some item → OfDocScope args.doc_scope item.metadata.doc_type) := by
  unfold index_row
  split
  · rename_i row
    generalize row_metadata row = metadata
    dsimp only
    split
    · simp
    · split
      · simp
      · split
        · simp
        · refine Gives.bind (P := fun inside => in_doc_scope args.doc_scope (metadata.get "doc_type") =
            .ok inside) (fun _ h => h) ?_
          intro inside hinside
          split
          · simp
          · rename_i htrue
            rw [Bool.not_eq_true, Bool.not_eq_false'] at htrue
            refine gives_bind fun score_raw => gives_bind fun page => ?_
            rw [gives_pure]
            rintro _ ⟨⟩
            exact (in_doc_scope_iff hinside).1 htrue
  · simp

theorem items_in_scope (env : Env) (args : RetrievalArgs) (result : PyDict) :
    Gives (items_of_result env args result) (fun found => ∀ items, found = some items →
      ∀ item ∈ items, OfDocScope args.doc_scope item.metadata.doc_type) := by
  unfold items_of_result
  split
  · refine (gives_mapM fun row _ => index_row_in_scope env args row).bind fun found hfound => ?_
    rw [gives_pure]
    rintro _ ⟨⟩ item hin
    obtain ⟨o, ho, heq⟩ := List.mem_filterMap.1 hin
    exact hfound o ho item heq
  · rw [gives_pure]
    rintro _ ⟨⟩ item hin
    cases hin

theorem local_candidates_in_scope (s : Store) (args : RetrievalArgs) :
    Gives (local_candidates s args)
      (fun items => ∀ item ∈ items, OfDocScope args.doc_scope item.metadata.doc_type) := by
  unfold local_candidates
  refine gives_mapM fun source hin => ?_
  obtain ⟨-, -, -, hscope⟩ := of_decide_eq_true (List.mem_filter.1 hin).2
  have hmetadata : Gives (source_metadata source) (fun m => m.doc_type = .str source.doc_type) := by
    unfold source_metadata
    refine gives_bind fun page => ?_
    rw [gives_pure]
  refine hmetadata.bind fun m hm => ?_
  rw [gives_pure]
  exact hscope.imp_right fun hin => ⟨source.doc_type, hin, hm⟩

theorem first_candidates_in_scope (env : RetrievalEnv) (args : RetrievalArgs) (w : World) :
    Gives (first_candidates env args w)
      (fun items => ∀ item ∈ items, OfDocScope args.doc_scope item.metadata.doc_type) := by
  unfold first_candidates
  have hanswered : Gives ((query_lightrag env args).result w) (fun found => ∀ items, found = some items →
      ∀ item ∈ items, OfDocScope args.doc_scope item.metadata.doc_type) := by
    rw [query_lightrag_result]
    refine gives_bind fun name => gives_bind fun result => ?_
    split
    · rw [gives_pure]
      rintro _ ⟨⟩
    · exact items_in_scope env.core args _
  refine hanswered.bind fun found hfound => ?_
  unfold found_candidates
  split
  · exact gives_ok.2 (hfound _ rfl)
  · exact local_candidates_in_scope w.store args

/-! ## The law -/

/-- The type of the item is one of those that the caller asks for. -/
def TypeAsked (args : RetrievalArgs) (item : Item) : Prop :=
  ∃ t ∈ args.doc_scope, item.metadata.doc_type = .str t

/-- Each hit of the filters that gets a place among the candidates, and has a
text that satisfies the terms, is of a type of the scope. -/
def HitsInScope (env : RetrievalEnv) (suppliers : List Supplier) (args : RetrievalArgs) (w : World) : Prop :=
  ∀ candidates hits, first_candidates env args w = .ok candidates → AllHashable candidates →
    HitsOf env.core w.store suppliers args hits → ∀ hit ∈ hits,
      Joins key_of lower_score candidates hit → Satisfies env args (source_text env w.store hit) →
        TypeAsked args hit

theorem type_asked_iff (hscope : args.doc_scope ≠ []) {item : Item} :
    TypeAsked args item ↔ OfDocScope args.doc_scope item.metadata.doc_type := by
  unfold TypeAsked OfDocScope
  simp [hscope]

/-- Whatever a query cuts off, it returns only types of the scope exactly when
the hits of its filters that can be returned are of the scope. -/
theorem doc_scope_holds_iff (env : RetrievalEnv) (suppliers : List Supplier) (args : RetrievalArgs)
    (w : World) (hscope : args.doc_scope ≠ []) :
    AllReturned env suppliers args w (TypeAsked args) ↔ HitsInScope env suppliers args w := by
  rw [all_returned_iff fun item r => Iff.rfl]
  constructor
  · intro h candidates hits hfirst hhashable hhits hit hin hjoins htext
    have hmerged := with_structured_hits hhits hhashable
    have hthere := (merged_all candidates hhits.distinct.2).joined hit hin hjoins
    refine h _ ?_ hit (mem_with_terms.2 ⟨hthere, htext⟩)
    unfold merged_candidates
    rw [hfirst]
    exact hmerged
  · intro h merged hmerged item hin
    obtain ⟨hin, htext⟩ := mem_with_terms.1 hin
    rw [type_asked_iff hscope]
    unfold merged_candidates at hmerged
    rcases hfirst : first_candidates env args w with e | candidates
    · rw [hfirst] at hmerged
      cases hmerged
    · rw [hfirst] at hmerged
      have hcandidates := first_candidates_in_scope env args w candidates hfirst
      rcases with_structured_cases hmerged with rfl | ⟨hhashable, hits, hhits⟩
      · exact hcandidates item hin
      · have hsame := with_structured_hits hhits hhashable
        rw [Except.ok.inj (hmerged.symm.trans hsame)] at hin
        rcases (merged_all candidates hhits.distinct.2).origin item hin with hold | ⟨hhit, hjoins⟩
        · exact hcandidates item hold
        · exact (type_asked_iff hscope).1
            (h candidates hits hfirst hhashable hhits item hhit hjoins htext)

/-! ## A hit of another type -/

def tender_source : CitationSource where
  chunk_id := "ck_tender"
  document_id := "doc_1"
  tenant_id := "acme"
  project_id := "prj_1"
  supplier_id := "sup_1"
  doc_type := "tender"
  page := .int 1
  bbox := default_bbox
  heading_path := .none
  chunk_type := .none
  content_source := .none
  text := .str "tender text"
  context := .none
  score_raw := 1 / 2
  chunk_hash := .none

def tender_world : World :=
  { World.start with store := { World.start.store with
    citation_sources := World.start.store.citation_sources.set "ck_tender" tender_source } }

def acme_supplier : Supplier :=
  ⟨"sup_1", "acme", "S-1", "Supplier", .dict [], .dict [], "active", 0, 0⟩

/-- A query for bids, with a filter that the supplier matches. -/
def bid_args (doc_scope : List String) : RetrievalArgs :=
  { scope_laws.acme_args with
    doc_scope := doc_scope
    structured_filters := .dict [("supplier_code", .str "S-1")] }

theorem only_bids_without_filters :
    AllReturned scope_laws.two_rows [acme_supplier] { bid_args ["bid"] with structured_filters := .none }
      tender_world (TypeAsked { bid_args ["bid"] with structured_filters := .none }) := by
  refine (doc_scope_holds_iff scope_laws.two_rows [acme_supplier] _ tender_world (by decide)).2 ?_
  intro candidates hits _ _ hhits
  exact absurd hhits.filtered Bool.false_ne_true

def tender_retrieved : Retrieved where
  query := "query"
  query_type := "fact"
  selected_mode := "local"
  index_name := "lightrag_acme_prj_1"
  degraded := true
  degrade_reason := some "rerank_disabled"
  items := [{ structured_hit (.str "ck_tender") ⟨.str "acme", .str "prj_1", .str "sup_1", .str "doc_1",
    .str "tender", 1, default_bbox⟩ with score_rerank := some none }]
  total := 1

/-- The structured hit brings a tender to a query for bids. -/
theorem tender_is_returned_for_bids :
    (retrieval_query scope_laws.two_rows [acme_supplier] (bid_args ["bid"])).result tender_world =
      .ok tender_retrieved ∧
    ¬AllReturned scope_laws.two_rows [acme_supplier] (bid_args ["bid"]) tender_world
      (TypeAsked (bid_args ["bid"])) := by
  have hreturned : (retrieval_query scope_laws.two_rows [acme_supplier] (bid_args ["bid"])).result
      tender_world = .ok tender_retrieved := by rfl
  refine ⟨hreturned, fun h => ?_⟩
  obtain ⟨t, hin, htype⟩ := h 5 false tender_retrieved hreturned _ List.mem_cons_self
  rw [List.mem_singleton.1 hin] at htype
  exact absurd (PyVal.str.inj htype) (by decide)

end bid_evaluation.doc_scope_laws
