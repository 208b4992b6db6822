-- The laws of a retrieval. Each branch gives candidates of the scope of the
-- caller, and what comes after only drops, copies and orders them.
import BidEvaluation.Lib.Gives
import BidEvaluation.Operations
import BidEvaluation.RetrievalQuery

open dict_lib stepwise bid_evaluation.values bid_evaluation.core bid_evaluation.store_retrieval
  bid_evaluation.admin_store bid_evaluation.reranker bid_evaluation.retrieval
open bid_evaluation.operations (calm_env)

namespace bid_evaluation.scope_laws

/-- The metadata names the tenant and the project of the caller, and its
supplier if it names one. -/
structure InScope (args : RetrievalArgs) (metadata : Metadata) : Prop where
  tenant : metadata.tenant_id = .str args.tenant_id
  project : metadata.project_id = .str args.project_id
  supplier : args.supplier_id ≠ "" → metadata.supplier_id = .str args.supplier_id

def AllInScope (args : RetrievalArgs) (items : List Item) : Prop :=
  ∀ item ∈ items, InScope args item.metadata

variable {args : RetrievalArgs} {items items' : List Item} {P : Item → Prop}

theorem all_filterMap {found : List (Option Item)} (h : ∀ o ∈ found, ∀ item, o = some item → P item) :
    ∀ item ∈ found.filterMap id, P item := by
  intro item hin
  obtain ⟨o, ho, heq⟩ := List.mem_filterMap.1 hin
  exact h o ho item heq

/-! ## The structured branch -/

theorem source_metadata.spec (source : CitationSource) :
    Gives (source_metadata source) (fun m => m.tenant_id = .str source.tenant_id ∧
      m.project_id = .str source.project_id ∧ m.supplier_id = .str source.supplier_id) := by
  unfold source_metadata
  refine gives_bind fun page => ?_
  rw [gives_pure]
  exact ⟨rfl, rfl, rfl⟩

/-- With a supplier, no other one matches. -/
theorem matching_supplier_ids.spec (env : Env) (suppliers : List Supplier) (args : RetrievalArgs)
    (filters : PyDict) :
    Gives (matching_supplier_ids env suppliers args filters)
      (fun ids => args.supplier_id ≠ "" → ∀ id ∈ ids, id = args.supplier_id) := by
  unfold matching_supplier_ids
  refine gives_foldlM (by simp) fun ids supplier _ hids => ?_
  split
  · exact gives_pure.2 hids
  · split
    · exact gives_pure.2 hids
    · rename_i hother
      refine gives_bind fun found => ?_
      split
      · rw [gives_pure]
        intro hsupplier id hid
        rcases List.mem_append.1 hid with hid | hid
        · exact hids hsupplier id hid
        · rw [List.mem_singleton.1 hid]
          by_contra hne
          exact hother ⟨hsupplier, hne⟩
      · exact gives_pure.2 hids

/-- The metadata of a hit in a chunk of the document. -/
def chunk_metadata (args : RetrievalArgs) (document : Document) (page : Int) (bbox : PyVal) : Metadata where
  tenant_id := .str args.tenant_id
  project_id := .str args.project_id
  supplier_id := .str document.supplier_id
  document_id := .str document.document_id
  doc_type := .str document.doc_type
  page := page
  bbox := bbox

theorem chunk_hit.keeps {document : Document} {hits : Hits} {chunk : PyDict}
    (hhits : ∀ item ∈ hits.1, P item)
    (hnew : ∀ page bbox, (PyDict.get chunk "chunk_id").truthy = true →
      chunk_position chunk = .ok (page, bbox) →
      P (structured_hit (PyDict.get chunk "chunk_id") (chunk_metadata args document page bbox))) :
    Gives (chunk_hit document args hits chunk) (fun hits => ∀ item ∈ hits.1, P item) := by
  unfold chunk_hit
  dsimp only
  split
  · exact gives_pure.2 hhits
  · rename_i hsome
    refine gives_bind fun key => ?_
    split
    · exact gives_pure.2 hhits
    · refine Gives.bind (P := fun position => chunk_position chunk = .ok position)
        (fun position hposition => hposition) fun position hposition => ?_
      rw [gives_pure]
      refine List.forall_mem_append.2 ⟨hhits, fun item hin => ?_⟩
      rw [List.mem_singleton.1 hin]
      exact hnew position.1 position.2 (by simpa using hsome) hposition

/-- Whatever holds of the hits in the sources and in the chunks of the scope
holds of all. -/
theorem query_structured.keeps (env : Env) (s : Store) (suppliers : List Supplier)
    (args : RetrievalArgs) (filters : PyDict)
    (hsource : ∀ ids : List String, (args.supplier_id ≠ "" → ∀ id ∈ ids, id = args.supplier_id) →
      ∀ e ∈ s.citation_sources.entries,
        Gives (source_hit ids args e) (fun o => ∀ item, o = some item → P item))
    (hchunk : ∀ ids : List String, (args.supplier_id ≠ "" → ∀ id ∈ ids, id = args.supplier_id) →
      ∀ e ∈ s.document_chunks.entries, ∀ document, s.documents.get? e.1 = some document →
        document.tenant_id = args.tenant_id → document.supplier_id ∈ ids → ∀ chunk ∈ e.2,
          ∀ page bbox, (PyDict.get chunk "chunk_id").truthy = true →
            chunk_position chunk = .ok (page, bbox) →
            P (structured_hit (PyDict.get chunk "chunk_id") (chunk_metadata args document page bbox))) :
    Gives (query_structured env s suppliers args filters) (fun hits => ∀ item ∈ hits, P item) := by
  unfold query_structured
  refine (matching_supplier_ids.spec env suppliers args filters).bind fun ids hids => ?_
  split
  · rw [gives_pure]
    simp
  · refine (gives_mapM (hsource ids hids)).bind fun found hfound => ?_
    refine gives_bind fun seen => ?_
    have hhits : Gives (s.document_chunks.entries.foldlM (document_hits s ids args)
        (found.filterMap id, seen)) (fun hits => ∀ item ∈ hits.1, P item) := by
      refine gives_foldlM (all_filterMap hfound) fun hits e he hhits => ?_
      unfold document_hits
      split
      · exact gives_pure.2 hhits
      · rename_i document hdocument
        split
        · exact gives_pure.2 hhits
        · rename_i hscope
          simp only [not_or, ne_eq, not_not] at hscope
          refine gives_foldlM hhits fun hits chunk hin hhits => chunk_hit.keeps hhits ?_
          exact hchunk ids hids e he document hdocument hscope.1 hscope.2.2 chunk hin
    exact hhits.bind fun hits h => gives_pure.2 h

theorem source_hit.spec {ids : List String}
    (hids : args.supplier_id ≠ "" → ∀ id ∈ ids, id = args.supplier_id) (e : String × CitationSource) :
    Gives (source_hit ids args e) (fun o => ∀ item, o = some item → InScope args item.metadata) := by
  unfold source_hit
  dsimp only
  split
  · rw [gives_pure]
    simp
  · rename_i hscope
    simp only [not_or, ne_eq, not_not] at hscope
    obtain ⟨htenant, hproject, hsupplier⟩ := hscope
    refine (source_metadata.spec e.2).bind fun m hm => ?_
    rw [gives_pure]
    rintro _ ⟨⟩
    obtain ⟨ht, hp, hs⟩ := hm
    refine ⟨?_, ?_, fun hne => ?_⟩
    · rw [← htenant]
      exact ht
    · rw [← hproject]
      exact hp
    · rw [← hids hne _ hsupplier]
      exact hs

theorem query_structured.spec (env : Env) (s : Store) (suppliers : List Supplier)
    (args : RetrievalArgs) (filters : PyDict) :
    Gives (query_structured env s suppliers args filters) (AllInScope args) := by
  refine query_structured.keeps env s suppliers args filters
    (fun ids hids e _ => source_hit.spec hids e) ?_
  intro ids hids e _ document _ _ hsupplier chunk _ page bbox _ _
  exact ⟨rfl, rfl, fun hne => congrArg PyVal.str (hids hne _ hsupplier)⟩

/-! ## The index and the citation sources -/

theorem eq_of_is_str {x : PyVal} {s : String} (h : is_str x s = true) : x = .str s := by
  unfold is_str at h
  split at h
  · rw [of_decide_eq_true h]
  · cases h

theorem index_row.spec (env : Env) (args : RetrievalArgs) (row : PyVal) :
    Gives (index_row env args row)
      (fun o => ∀ item, o = some item → InScope args item.metadata) := by
  unfold index_row
  split
  · rename_i row
    generalize row_metadata row = metadata
    dsimp only
    by_cases htenant : is_str (metadata.get "tenant_id") args.tenant_id = true
    · by_cases hproject : is_str (metadata.get "project_id") args.project_id = true
      · by_cases hsupplier : is_str (metadata.get "supplier_id") args.supplier_id = true
        · simp only [htenant, hproject, hsupplier, Bool.not_true, Bool.false_eq_true, if_false]
          refine gives_bind fun inside => ?_
          split
          · simp
          · refine gives_bind fun score_raw => gives_bind fun page => ?_
            rw [gives_pure]
            rintro _ ⟨⟩
            exact ⟨eq_of_is_str htenant, eq_of_is_str hproject, fun _ => eq_of_is_str hsupplier⟩
        · simp [htenant, hproject, hsupplier]
      · simp [htenant, hproject]
    · simp [htenant]
  · simp

theorem query_lightrag.spec (env : RetrievalEnv) (args : RetrievalArgs) (w : World) :
    Gives ((query_lightrag env args).result w)
      (fun o => ∀ items, o = some items → AllInScope args items) := by
  unfold query_lightrag
  refine gives_then fun _ w => gives_then fun n w => gives_then fun result w => ?_
  rcases result with _ | result
  · rintro _ ⟨⟩ items ⟨⟩
  · dsimp only
    split
    · rename_i rows _
      refine Gives.then (gives_mapM fun row _ => index_row.spec env.core args row) ?_
      rintro found w hfound _ ⟨⟩ items ⟨⟩
      exact all_filterMap hfound
    · rintro _ ⟨⟩ items ⟨⟩ item hin
      cases hin

theorem local_candidates.spec (s : Store) (args : RetrievalArgs) :
    Gives (local_candidates s args) (AllInScope args) := by
  unfold local_candidates
  refine gives_mapM fun source hin => ?_
  have hsource := of_decide_eq_true (List.mem_filter.1 hin).2
  refine (source_metadata.spec source).bind fun m hm => ?_
  rw [gives_pure]
  obtain ⟨ht, hp, hs⟩ := hm
  obtain ⟨htenant, hproject, hsupplier, -⟩ := hsource
  exact ⟨htenant ▸ ht, hproject ▸ hp, fun _ => hsupplier ▸ hs⟩

/-! ## The merge -/

theorem merge_hit.keeps {found : Hits} {hit : Item} (hfound : ∀ item ∈ found.1, P item)
    (hhit : P hit) : Gives (merge_hit found hit) (fun found => ∀ item ∈ found.1, P item) := by
  unfold merge_hit
  refine gives_bind fun hid => ?_
  split
  · refine (gives_mapM (Q := P) fun c hc => ?_).bind fun candidates h => gives_pure.2 h
    refine gives_bind fun cid => ?_
    rw [gives_pure]
    split
    · exact hhit
    · exact hfound c hc
  · rw [gives_pure]
    refine List.forall_mem_append.2 ⟨hfound, fun item hin => ?_⟩
    rw [List.mem_singleton.1 hin]
    exact hhit

/-- Each candidate after the merge is one from before or a hit. -/
theorem with_structured.keeps (env : Env) (s : Store) (suppliers : List Supplier)
    (h : ∀ item ∈ items, P item)
    (hhits : args.structured_filters.truthy = true → ∀ filters,
      Gives (query_structured env s suppliers args filters) (fun hits => ∀ item ∈ hits, P item)) :
    Gives (with_structured env s suppliers args items) (fun items => ∀ item ∈ items, P item) := by
  unfold with_structured
  split
  · exact gives_ok.2 h
  · rename_i hfilters
    refine gives_bind fun validated => ?_
    split
    · exact gives_pure.2 h
    · refine (hhits (by simpa using hfilters) validated).bind fun hits hhits => ?_
      refine gives_bind fun existing => ?_
      have hmerged : Gives (hits.foldlM merge_hit (items, existing))
          (fun found => ∀ item ∈ found.1, P item) :=
        gives_foldlM h fun found hit hin hfound => merge_hit.keeps hfound (hhits hit hin)
      exact hmerged.bind fun found hfound => gives_pure.2 hfound

theorem with_structured.spec (env : Env) (s : Store) (suppliers : List Supplier)
    (h : AllInScope args items) :
    Gives (with_structured env s suppliers args items) (AllInScope args) :=
  with_structured.keeps env s suppliers h fun _ filters =>
    query_structured.spec env s suppliers args filters

/-! ## The ranking -/

theorem mem_sorted_by {score : Item → Rat} {item : Item} :
    item ∈ sorted_by score items ↔ item ∈ items := by
  unfold sorted_by
  rw [List.mem_insertionSort]

/-- Every item that is returned is one of those given, with another rank. -/
def From (items ranked : List Item) : Prop :=
  ∀ item ∈ ranked, ∃ old ∈ items, ∃ r, item = { old with score_rerank := r }

theorem from_sorted_map {score : Item → Rat} {f : Item → Item}
    (hf : ∀ item, ∃ r, f item = { item with score_rerank := r }) :
    From items (sorted_by score (items.map f)) := by
  intro item hin
  obtain ⟨old, hold, rfl⟩ := List.mem_map.1 (mem_sorted_by.1 hin)
  exact ⟨old, hold, hf old⟩

theorem from_take {ranked : List Item} {n : Nat} (h : From items ranked) :
    From items (ranked.take n) := fun item hin => h item (List.mem_of_mem_take hin)

theorem rerank_simple.spec (env : Rerankers) (query : String) (items : List Item) :
    From items (rerank_simple env query items) := by
  unfold rerank_simple
  dsimp only
  split
  · exact from_sorted_map fun _ => ⟨_, rfl⟩
  · exact from_sorted_map fun _ => ⟨_, rfl⟩

theorem rerank_cross_encoder.spec (env : Rerankers) (query : String) (items : List Item) :
    Gives (rerank_cross_encoder env query items) (From items) := by
  unfold rerank_cross_encoder
  split
  · exact gives_ok.2 (rerank_simple.spec env query items)
  · exact gives_error
  · exact gives_ok.2 (rerank_simple.spec env query items)
  · rw [gives_ok]
    intro item hin
    obtain ⟨⟨old, raw⟩, hold, rfl⟩ := List.mem_map.1 (mem_sorted_by.1 hin)
    exact ⟨old, (List.of_mem_zip hold).1, _, rfl⟩

theorem rerank_api.spec (env : Rerankers) (query : String) (items : List Item)
    (backend : String) : Gives (rerank_api env query items backend) (From items) := by
  unfold rerank_api
  split
  · exact gives_ok.2 (rerank_simple.spec env query items)
  · refine gives_bind fun scores => ?_
    rw [gives_pure]
    intro item hin
    obtain ⟨⟨old, i⟩, hold, rfl⟩ := List.mem_map.1 (mem_sorted_by.1 hin)
    exact ⟨old, List.fst_mem_of_mem_zipIdx hold, _, rfl⟩

theorem rerank_items.spec (env : Rerankers) (query : String) (items : List Item) :
    Gives (rerank_items env query items) (From items) := by
  unfold rerank_items
  split
  · rw [gives_ok]
    intro item hin
    cases hin
  · have hresult : Gives (rerank_by_backend env query items) (From items) := by
      unfold rerank_by_backend
      split
      · exact rerank_cross_encoder.spec env query items
      · split
        · exact rerank_api.spec env query items _
        · exact gives_ok.2 (rerank_simple.spec env query items)
    refine hresult.bind fun result h => ?_
    rw [gives_pure]
    split
    · exact from_take h
    · exact h

theorem ranked_items.spec (env : RetrievalEnv) (args : RetrievalArgs) (items : List Item) :
    From items (ranked_items env args items).1 := by
  have hunranked : From items (unranked items) := from_sorted_map fun _ => ⟨_, rfl⟩
  unfold ranked_items rerank
  split
  · split
    · rename_i ranked hranked
      split at hranked
      · cases hranked
      · exact rerank_items.spec env.rerankers args.query items ranked hranked
    · exact hunranked
  · exact hunranked

/-! ## The query -/

theorem mem_up_to {top_k : Int} {item : Item} (h : item ∈ up_to top_k items) : item ∈ items := by
  unfold up_to at h
  split at h
  · exact List.mem_of_mem_take h
  · exact List.mem_of_mem_take h

theorem length_up_to {top_k : Int} (htop : 1 ≤ top_k) :
    ((up_to top_k items).length : Int) ≤ top_k := by
  unfold up_to
  rw [if_pos (by omega), List.length_take]
  omega

/-- Whatever the index answers, a retrieval that returns has at most `top_k`
items, all of them of the scope of its caller. -/
theorem retrieval_stays_in_scope (env : RetrievalEnv) (suppliers : List Supplier)
    (args : RetrievalArgs) (w : World) (retrieved : Retrieved) (htop : 1 ≤ args.top_k)
    (h : (retrieval_query env suppliers args).result w = .ok retrieved) :
    AllInScope args retrieved.items ∧ (retrieved.items.length : Int) ≤ args.top_k := by
  suffices hgives : Gives ((retrieval_query env suppliers args).result w) (fun retrieved =>
      AllInScope args retrieved.items ∧ (retrieved.items.length : Int) ≤ args.top_k) from
    hgives retrieved h
  unfold retrieval_query
  refine gives_then fun index_name w => ?_
  refine (query_lightrag.spec env args w).then fun answered w hanswered => ?_
  refine gives_then fun w' w => ?_
  have hcandidates : Gives (found_candidates w'.store args answered) (AllInScope args) := by
    unfold found_candidates
    split
    · exact gives_ok.2 (hanswered _ rfl)
    · exact local_candidates.spec w'.store args
  refine Gives.then hcandidates fun candidates w hcandidates => ?_
  refine Gives.then (with_structured.spec env.core w'.store suppliers hcandidates) ?_
  intro merged w hmerged
  rintro _ ⟨⟩
  refine ⟨?_, length_up_to htop⟩
  intro item hin
  obtain ⟨old, hold, r, rfl⟩ := ranked_items.spec env args _ item (mem_up_to hin)
  unfold with_terms at hold
  exact hmerged old (List.mem_filter.1 (List.mem_filter.1 hold).1).1

/-- A row of the index service for a tenant. -/
def row_of (tenant_id : String) : PyVal :=
  .dict [("chunk_id", .str "ck_1"), ("metadata", .dict [("tenant_id", .str tenant_id),
    ("project_id", .str "prj_1"), ("supplier_id", .str "sup_1")])]

/-- An index service that answers with a row of another tenant, too. -/
def two_rows : RetrievalEnv where
  core := calm_env
  rerankers := ⟨"simple", 0, false, fun _ _ => .missing, fun _ _ _ => .unavailable, id, id, id,
    calm_env.repr, calm_env.float_of_str⟩
  lightrag_dsn := true
  query_index _ := .answered (.dict [("items", .list [row_of "globex", row_of "acme"])])
  lower := id

def acme_args : RetrievalArgs :=
  ⟨"acme", "prj_1", "sup_1", "query", "fact", false, 5, [], false, [], [], .none⟩

def acme_retrieved : Retrieved where
  query := "query"
  query_type := "fact"
  selected_mode := "local"
  index_name := "lightrag_acme_prj_1"
  degraded := true
  degrade_reason := some "rerank_disabled"
  items := [⟨.str "ck_1", 1 / 2, "matched retrieval intent",
    ⟨.str "acme", .str "prj_1", .str "sup_1", .none, .none, 1, default_bbox⟩, none, some none⟩]
  total := 1

theorem row_of_another_tenant_is_dropped :
    AllInScope acme_args acme_retrieved.items ∧ (acme_retrieved.items.length : Int) ≤ 5 :=
  retrieval_stays_in_scope two_rows [] acme_args World.start acme_retrieved (by decide) (by rfl)

end bid_evaluation.scope_laws
