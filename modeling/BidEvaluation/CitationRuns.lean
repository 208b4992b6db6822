-- Citations never cross tenants: over any operations, changes of the rule
-- packs and previews, as long as nobody outside names a chunk of another tenant.
import BidEvaluation.CitationLaws
import BidEvaluation.RetrievalSteps

open dict_lib stepwise bid_evaluation.values bid_evaluation.core bid_evaluation.store_retrieval
  bid_evaluation.admin_store bid_evaluation.reranker bid_evaluation.retrieval
  bid_evaluation.operations bid_evaluation.writes bid_evaluation.scope_laws
  bid_evaluation.retrieval_steps bid_evaluation.citation_steps bid_evaluation.citation_laws

namespace bid_evaluation.citation_runs

variable {env : RetrievalEnv} {suppliers : List Supplier} {args : RetrievalArgs} {w : World}
  {tenant_id : String}

/-! ## What a preview shows -/

/-- The document and the text of the item are those of a source of the tenant.
An item without a source has neither. -/
def ShowsOwn (tenant_id : String) (w : World) (item : PreviewItem) : Prop :=
  item.document_id = none ∧ item.text = .str "" ∨
    ∃ chunk_id source, item.chunk_id = .str chunk_id ∧ SourceAt w chunk_id source ∧
      source.tenant_id = tenant_id ∧ item.document_id = some source.document_id ∧
      item.text = source.text

/-- The id names no chunk that another tenant has registered. -/
def OwnId (tenant_id : String) (w : World) (chunk_id : PyVal) : Prop :=
  ∀ id, chunk_id = .str id → AtHome tenant_id w id

/-- No row of the next answer that names the tenant of the caller has the id
of a chunk of another tenant. -/
def RowsAtHome (env : RetrievalEnv) (args : RetrievalArgs) (w : World) : Prop :=
  ∀ result rows, index_result env w.draws = .ok (some result) →
    PyDict.get result "items" = .list rows → ∀ row, .dict row ∈ rows →
      (row_metadata row).get "tenant_id" = .str args.tenant_id →
        OwnId args.tenant_id w (PyDict.get row "chunk_id")

/-- No chunk of the tenant's documents has the id of a chunk of another tenant. -/
def ChunksAtHome (tenant_id : String) (w : World) : Prop :=
  ∀ document_id chunks document, w.store.document_chunks.get? document_id = some chunks →
    w.store.documents.get? document_id = some document → document.tenant_id = tenant_id →
      ∀ chunk ∈ chunks, OwnId tenant_id w (PyDict.get chunk "chunk_id")

theorem own_of_source {id : String} {source : CitationSource} (h : SourceAt w id source)
    (howned : source.tenant_id = tenant_id) : OwnId tenant_id w (.str id) := by
  rintro _ ⟨⟩ other hother
  cases h.symm.trans hother
  exact howned

/-! ## The candidates -/

theorem index_row.row (env : Env) (args : RetrievalArgs) (row : PyVal) :
    Gives (index_row env args row) (fun o => ∀ item, o = some item → ∃ d, row = .dict d ∧
      (row_metadata d).get "tenant_id" = .str args.tenant_id ∧
        item.chunk_id = PyDict.get d "chunk_id") := by
  unfold index_row
  split
  · rename_i d
    dsimp only
    by_cases htenant : is_str ((row_metadata d).get "tenant_id") args.tenant_id = true
    · split
      · exact gives_pure.2 (by rintro _ ⟨⟩)
      · split
        · exact gives_pure.2 (by rintro _ ⟨⟩)
        · split
          · exact gives_pure.2 (by rintro _ ⟨⟩)
          · refine gives_bind fun inside => ?_
            split
            · exact gives_pure.2 (by rintro _ ⟨⟩)
            · refine gives_bind fun score_raw => gives_bind fun page => ?_
              rw [gives_pure]
              rintro _ ⟨⟩
              exact ⟨d, rfl, eq_of_is_str htenant, rfl⟩
    · simp [htenant]
  · simp

/-- Of the rows of an answer only those of the tenant are left. -/
theorem query_lightrag.own (h : RowsAtHome env args w) :
    Gives ((query_lightrag env args).result w) (fun answered => ∀ items, answered = some items →
      ∀ item ∈ items, OwnId args.tenant_id w item.chunk_id) := by
  rw [query_lightrag_result]
  refine gives_bind fun name => Gives.bind (P := fun o => index_result env w.draws = .ok o)
    (fun o ho => ho) fun answered hanswered => ?_
  rcases answered with _ | result
  · exact gives_pure.2 (by rintro _ ⟨⟩)
  · show Gives (items_of_result env.core args result) _
    unfold items_of_result
    split
    · rename_i rows hrows
      refine Gives.bind (gives_mapM (Q := fun o => ∀ item, o = some item →
        OwnId args.tenant_id w item.chunk_id) fun row hrow => ?_) fun found hfound => ?_
      · refine (index_row.row env.core args row).mono fun o ho item hitem => ?_
        obtain ⟨d, rfl, htenant, hid⟩ := ho item hitem
        rw [hid]
        exact h result rows hanswered hrows d hrow htenant
      · rw [gives_pure]
        rintro _ ⟨⟩
        exact all_filterMap hfound
    · exact gives_pure.2 (by rintro _ ⟨⟩ item hin; cases hin)

theorem local_candidates.own (hkeyed : Keyed w) (args : RetrievalArgs) :
    Gives (local_candidates w.store args) (fun items => ∀ item ∈ items,
      OwnId args.tenant_id w item.chunk_id) := by
  unfold local_candidates
  refine gives_mapM fun source hin => gives_bind fun metadata => ?_
  rw [gives_pure]
  obtain ⟨hvalue, hscope⟩ := List.mem_filter.1 hin
  obtain ⟨id, hsource⟩ := (Dict.mem_values_iff _ _).1 hvalue
  have hid : source.chunk_id = id := hkeyed id source hsource
  subst hid
  exact own_of_source hsource (of_decide_eq_true hscope).1

theorem query_structured.own (hchunks : ChunksAtHome args.tenant_id w) (env : Env)
    (filters : PyDict) :
    Gives (query_structured env w.store suppliers args filters) (fun hits => ∀ item ∈ hits,
      OwnId args.tenant_id w item.chunk_id) := by
  refine query_structured.keeps env w.store suppliers args filters ?_ ?_
  · intro ids _ e he
    unfold source_hit
    dsimp only
    split
    · exact gives_pure.2 (by rintro _ ⟨⟩)
    · rename_i hscope
      simp only [not_or, ne_eq, not_not] at hscope
      refine gives_bind fun metadata => ?_
      rw [gives_pure]
      rintro _ ⟨⟩
      exact own_of_source ((Dict.mem_entries_iff _ e.1 e.2).1 he) hscope.1
  · intro ids _ e he document hdocument htenant _ chunk hchunk page bbox _ _
    exact hchunks e.1 e.2 document ((Dict.mem_entries_iff _ e.1 e.2).1 he)
      hdocument htenant chunk hchunk

/-- A filter brings the stored chunks in. -/
theorem merged_candidates.own (hkeyed : Keyed w) (hrows : RowsAtHome env args w)
    (hchunks : args.structured_filters.truthy = true → ChunksAtHome args.tenant_id w) :
    Gives (merged_candidates env suppliers args w) (fun items => ∀ item ∈ items,
      OwnId args.tenant_id w item.chunk_id) := by
  unfold merged_candidates first_candidates
  refine Gives.bind (P := fun items => ∀ item ∈ items, OwnId args.tenant_id w item.chunk_id) ?_
    fun candidates h => ?_
  · refine (query_lightrag.own hrows).bind fun answered hanswered => ?_
    unfold found_candidates
    split
    · exact gives_ok.2 (hanswered _ rfl)
    · exact local_candidates.own hkeyed args
  · exact with_structured.keeps env.core w.store suppliers h fun hfilters filters =>
      query_structured.own (hchunks hfilters) env.core filters

/-! ## The preview -/

theorem preview_item.own {item : Item} (h : OwnId tenant_id w item.chunk_id) :
    Gives (preview_item w.store item) (ShowsOwn tenant_id w) := by
  unfold preview_item
  refine Gives.bind (P := fun key => hash_key item.chunk_id = .ok key) (fun key hkey => hkey)
    fun key hkey => ?_
  rw [gives_pure]
  cases key with
  | text chunk_id =>
    have hid : item.chunk_id = .str chunk_id := by
      cases hitem : item.chunk_id <;> rw [hitem] at hkey <;> cases hkey
      rfl
    dsimp only
    cases hsource : w.store.citation_sources.get? chunk_id with
    | none => exact .inl ⟨rfl, rfl⟩
    | some source =>
      exact .inr ⟨chunk_id, source, hid, hsource, h chunk_id hid source hsource, rfl, rfl⟩
  | none => exact .inl ⟨rfl, rfl⟩
  | number x => exact .inl ⟨rfl, rfl⟩

theorem query_store (env : RetrievalEnv) (suppliers : List Supplier) (args : RetrievalArgs) :
    Keeps SameStore (retrieval_query env suppliers args) := by
  unfold retrieval_query
  have hname : Keeps SameStore (retrieval_index_name env.core args.tenant_id args.project_id) :=
    (index_name_quiet _ _ _).mono fun _ _ hsame => congrArg World.store hsame
  refine keeps_bind hname fun _ => keeps_bind (query_lightrag_keeps env args) fun _ => ?_
  refine keeps_bind keeps_read fun _ => keeps_bind (keeps_lift _) fun _ => ?_
  exact keeps_bind (keeps_lift _) fun _ => keeps_pure _

theorem retrieval_preview.own (hkeyed : Keyed w) (hrows : RowsAtHome env args w)
    (hchunks : args.structured_filters.truthy = true → ChunksAtHome args.tenant_id w) :
    Gives ((retrieval_preview env suppliers args).result w)
      (fun preview => ∀ item ∈ preview.items, ShowsOwn args.tenant_id w item) := by
  unfold retrieval_preview
  rcases hbase : (retrieval_query env suppliers args).result w with e | base
  · rw [result_bind_error hbase]
    exact gives_error
  · rw [result_bind hbase, result_read, store_stays (query_store env suppliers args)]
    have hitems : ∀ item ∈ base.items, OwnId args.tenant_id w item.chunk_id := by
      obtain ⟨name, merged, -, hmerged, rfl⟩ := retrieved_iff.1 hbase
      intro item hin
      obtain ⟨old, hold, r, rfl⟩ := ranked_items.spec env args _ item (mem_up_to hin)
      unfold with_terms at hold
      exact merged_candidates.own hkeyed hrows hchunks merged hmerged old
        (List.mem_filter.1 (List.mem_filter.1 hold).1).1
    have hshown := gives_mapM (f := preview_item w.store) fun item hin =>
      preview_item.own (hitems item hin)
    exact Gives.then (P := fun items => ∀ item ∈ items, ShowsOwn args.tenant_id w item) hshown
      fun items t hitems => gives_pure.2 hitems

/-! ## Runs -/

inductive Event where
  | op (env : Env) (op : Op)
  | rule_packs (rule_packs : Table RulePack.rule_pack_version)
  | preview (env : RetrievalEnv) (suppliers : List Supplier) (args : RetrievalArgs)

def happens (w : World) : Event → World
  | .op env op => perform env w op
  | .rule_packs rule_packs => { w with store := { w.store with rule_packs := rule_packs } }
  | .preview env suppliers args => (retrieval_preview env suppliers args).final w

/-- Nobody outside names a chunk of another tenant: neither the retrieval of an
evaluation, nor the index, nor a parser whose chunks a filter brings in. -/
def Careful (w : World) : Event → Prop
  | .op env op => CitesOwn env w op
  | .rule_packs _ => True
  | .preview env _ args => RowsAtHome env args w ∧
    (args.structured_filters.truthy = true → ChunksAtHome args.tenant_id w)

/-- A run, with the worlds that it went through. -/
inductive CarefulRun : List World → World → Prop where
  | start : CarefulRun [] World.start
  | step {passed : List World} {w : World} (h : CarefulRun passed w) (event : Event)
      (hcareful : Careful w event) : CarefulRun (w :: passed) (happens w event)

/-- The sources that the worlds had. -/
def past_of (passed : List World) : Past := fun chunk_id source =>
  ∃ w ∈ passed, SourceAt w chunk_id source

theorem preview_plain (env : RetrievalEnv) (suppliers : List Supplier) (args : RetrievalArgs)
    (w : World) : Plain w ((retrieval_preview env suppliers args).final w) := by
  have hdraw : Keeps Plain draw :=
    keeps_bind keeps_read fun _ => keeps_bind (keeps_write fun _ => ⟨rfl, rfl, fun h => h⟩)
      fun _ => keeps_pure _
  have hname : Keeps Plain (retrieval_index_name env.core args.tenant_id args.project_id) :=
    (index_name_quiet _ _ _).mono fun a b hsame => by
      subst hsame
      exact ⟨rfl, rfl, fun h => h⟩
  have hindex : Keeps Plain (query_lightrag env args) := by
    unfold query_lightrag
    refine keeps_bind hname fun _ => keeps_bind hdraw fun n =>
      keeps_bind (keeps_lift _) fun result => ?_
    rcases result with _ | result
    · exact keeps_pure _
    · dsimp only
      split
      · exact keeps_bind (keeps_lift _) fun _ => keeps_pure _
      · exact keeps_pure _
  have hquery : Keeps Plain (retrieval_query env suppliers args) :=
    keeps_bind hname fun _ => keeps_bind hindex fun _ => keeps_bind keeps_read fun _ =>
      keeps_bind (keeps_lift _) fun _ => keeps_bind (keeps_lift _) fun _ => keeps_pure _
  have hpreview : Keeps Plain (retrieval_preview env suppliers args) :=
    keeps_bind hquery fun _ => keeps_bind keeps_read fun _ => keeps_bind (keeps_lift _)
      fun _ => keeps_pure _
  exact hpreview.final (fun _ => ⟨rfl, rfl, fun h => h⟩)
    (fun _ _ _ h h' => ⟨h'.reports.trans h.reports, h'.waiting.trans h.waiting,
      fun hk => h'.keyed (h.keyed hk)⟩) w

/-- What is at home with a past is at home with a longer one. -/
theorem AllHome.longer {past past' : Past} (h : AllHome past w)
    (hpast : ∀ id source, past id source → past' id source) : AllHome past' w := by
  have hfrom : ∀ {owner c}, FromTenant past owner w c → FromTenant past' owner w c := by
    intro owner c hc hcontent
    obtain ⟨source, hsource, hrest⟩ := hc hcontent
    exact ⟨source, hsource.imp_left (hpast _ _), hrest⟩
  refine ⟨fun id report hr c hc => hfrom (h.reports id report hr c hc),
    fun thread_id state hs => ?_,
    h.keyed⟩
  obtain ⟨howned, hresults, hreport⟩ := h.waiting thread_id state hs
  exact ⟨howned, fun r hr c hc => hfrom (hresults r hr c hc),
    fun report hfound =>
      ⟨(hreport report hfound).1, fun c hc => hfrom ((hreport report hfound).2 c hc)⟩⟩

theorem allHome_start (past : Past) : AllHome past World.start :=
  ⟨by rintro id report ⟨⟩, by rintro thread_id state ⟨⟩, by rintro id source ⟨⟩⟩

theorem happens.home {past : Past} (h : AllHome past w) (hp : Remembers past w) (event : Event)
    (hcareful : Careful w event) : AllHome past (happens w event) := by
  cases event with
  | op env op => exact keepsHome_perform h hp op hcareful
  | rule_packs rule_packs => exact h.plain hp ⟨rfl, rfl, fun h => h⟩
  | preview env suppliers args => exact h.plain hp (preview_plain env suppliers args w)

theorem run_home {passed : List World} (h : CarefulRun passed w) : AllHome (past_of passed) w := by
  induction h with
  | start => exact allHome_start _
  | @step passed w _ event hcareful ih =>
    have hlonger : AllHome (past_of (w :: passed)) w := AllHome.longer ih fun id source hpast => by
      obtain ⟨v, hv, hsource⟩ := hpast
      exact ⟨v, List.mem_cons_of_mem _ hv, hsource⟩
    exact happens.home hlonger (fun id source hs => ⟨w, List.mem_cons_self, hs⟩) event hcareful

/-- After any careful run, each citation with content in a stored report shows
a source of the report's tenant that some world of the run had, and a careful
preview shows sources of its caller only. -/
theorem citations_stay_home {passed : List World} {w : World} (h : CarefulRun passed w) :
    (∀ id report, w.store.evaluation_reports.get? id = some report →
      ∀ c ∈ cited report, HasContent c →
      ∃ source, (∃ v ∈ w :: passed, SourceAt v c.chunk_id source) ∧
        source.tenant_id = report.tenant_id ∧ Shows c source) ∧
      ∀ env suppliers args preview, Careful w (.preview env suppliers args) →
        (retrieval_preview env suppliers args).result w = .ok preview →
          ∀ item ∈ preview.items, ShowsOwn args.tenant_id w item := by
  have hhome := run_home h
  refine ⟨fun id report hreport c hc hcontent => ?_,
    fun env suppliers args preview hcareful hpreview => ?_⟩
  · obtain ⟨source, hsource, howned, hshows⟩ := hhome.reports id report hreport c hc hcontent
    refine ⟨source, ?_, howned, hshows⟩
    rcases hsource with ⟨v, hv, hpast⟩ | hnow
    · exact ⟨v, List.mem_cons_of_mem _ hv, hpast⟩
    · exact ⟨w, List.mem_cons_self, hnow⟩
  · exact retrieval_preview.own hhome.keyed hcareful.1 hcareful.2 preview hpreview

/-! ## Two evaluations of one chunk -/

def delivery_pack : Table RulePack.rule_pack_version :=
  Table.empty.put ⟨"v1", "acme",
    .dict [("criteria", .list [.dict [("criteria_id", .str "delivery")]])]⟩

/-- Every retrieval gives the same chunk. -/
def one_chunk_env : Env :=
  { calm_env with retrieve_evidence := fun _ => .ok [⟨"chunk", .int 1, .list [], "on time", 1⟩] }

def bid_of (tenant_id : String) : Event :=
  .op one_chunk_env (.create_evaluation_job
    ⟨tenant_id, "trace", "project", "supplier", "v1", ⟨[], false⟩⟩)

/-- After the evaluation of one tenant. -/
def evaluated : World := happens (happens World.start (.rule_packs delivery_pack)) (bid_of "acme")

theorem first_bid_run :
    CarefulRun [happens World.start (.rule_packs delivery_pack), World.start] evaluated := by
  refine .step (.step .start (.rule_packs delivery_pack) trivial) (bid_of "acme") ?_
  rintro found hfound e he ev hev hid source ⟨⟩

theorem evaluation_has_report :
    (evaluated.store.evaluation_reports.get? "ev_").map
      (fun report => (cited report).length) = some 2 := by
  decide +kernel

theorem evaluation_cites_its_source : ∃ report,
    evaluated.store.evaluation_reports.get? "ev_" = some report ∧ (cited report).length = 2 ∧
      ∀ c ∈ cited report, HasContent c → ∃ source, (∃ v ∈ evaluated ::
        [happens World.start (.rule_packs delivery_pack), World.start],
          SourceAt v c.chunk_id source) ∧
          source.tenant_id = report.tenant_id ∧ Shows c source := by
  obtain ⟨report, hreport, hlength⟩ := Option.map_eq_some_iff.1 evaluation_has_report
  exact ⟨report, hreport, hlength, (citations_stay_home first_bid_run).1 "ev_" report hreport⟩

/-- Another tenant that retrieves the chunk too cites the source of the first. -/
theorem careless_evaluation_cites_another :
    ((happens evaluated (bid_of "globex")).store.evaluation_reports.get? "ev_aaaaaaaaaa").map
        (fun report =>
          (report.tenant_id, (cited report).map fun c => (c.chunk_id, c.page.toInt.toOption))) =
          some ("globex", [("chunk", some 1), ("chunk", some 1)]) ∧
      ((happens evaluated (bid_of "globex")).store.citation_sources.get? "chunk").map
        (fun source => (source.tenant_id, source.page.toInt.toOption)) = some ("acme", some 1) :=
  ⟨by decide +kernel, by decide +kernel⟩

end bid_evaluation.citation_runs
