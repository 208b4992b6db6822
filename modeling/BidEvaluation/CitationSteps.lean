-- Whose sources the citations of a report show. Only the retrieval of an
-- evaluation adds sources of its tenant, and its nodes cite no other: what the
-- nodes, the graph and a resume make is from the tenant if their start was.
import BidEvaluation.ScoringLaws
import BidEvaluation.Writes

open dict_lib stepwise bid_evaluation.values bid_evaluation.core bid_evaluation.store_ops
  bid_evaluation.store_workflow bid_evaluation.store_admin bid_evaluation.store_retrieval
  bid_evaluation.store_eval bid_evaluation.evaluation_nodes bid_evaluation.langgraph_runtime
  bid_evaluation.job_run bid_evaluation.endings bid_evaluation.review_steps
  bid_evaluation.scoring_laws bid_evaluation.writes

namespace bid_evaluation.citation_steps

variable {env : Env} {w t t' : World} {tenant_id : String}

/-! ## Citations and their sources -/

/-- The sources that were stored before, each with the id that it had. -/
abbrev Past := String → CitationSource → Prop

variable {past : Past}

def SourceAt (w : World) (chunk_id : String) (source : CitationSource) : Prop :=
  w.store.citation_sources.get? chunk_id = some source

/-- The citation shows a page, a box or a text. -/
def HasContent (c : Citation) : Prop :=
  c.page ≠ .none ∨ c.bbox ≠ .none ∨ ∃ quote, c.quote = some quote ∧ quote ≠ .none

/-- What the citation shows is the content of the source. -/
structure Shows (c : Citation) (source : CitationSource) : Prop where
  page : c.page = source.page
  bbox : c.bbox = source.bbox
  quote : ∀ quote, c.quote = some quote → quote = source.text

/-- What the citation shows is of a source of the tenant, that is stored or
was stored. -/
def FromTenant (past : Past) (tenant_id : String) (w : World) (c : Citation) : Prop :=
  HasContent c → ∃ source, (past c.chunk_id source ∨ SourceAt w c.chunk_id source) ∧
    source.tenant_id = tenant_id ∧ Shows c source

/-- The citations of the report and of its criteria. -/
def cited (report : EvaluationReport) : List Citation :=
  report.citations ++ report.criteria_results.flatMap (fun r => r.citations)

def HomeReport (past : Past) (w : World) (report : EvaluationReport) : Prop :=
  ∀ c ∈ cited report, FromTenant past report.tenant_id w c

/-- No other tenant has the source of the chunk. -/
def AtHome (tenant_id : String) (w : World) (chunk_id : String) : Prop :=
  ∀ source, SourceAt w chunk_id source → source.tenant_id = tenant_id

/-- A citation of a chunk that no other tenant has is from the tenant. -/
theorem resolved_home {chunk_id : String} (h : AtHome tenant_id w chunk_id) (include_quote : Bool) :
    FromTenant past tenant_id w (resolve_citation w.store include_quote chunk_id) := by
  intro hcontent
  unfold resolve_citation at hcontent ⊢
  cases hsource : w.store.citation_sources.get? chunk_id with
  | none =>
    rw [hsource] at hcontent
    rcases hcontent with hpage | hbbox | ⟨quote, hquote, hsome⟩
    · exact absurd rfl hpage
    · exact absurd rfl hbbox
    · cases include_quote
      · cases hquote
      · cases hquote
        exact absurd rfl hsome
  | some source =>
    refine ⟨source, .inr hsource, h source hsource, rfl, rfl, ?_⟩
    intro quote hquote
    cases include_quote
    · cases hquote
    · cases hquote
      rfl

/-! ## States of an evaluation -/

/-- What the state carries into its report is from the tenant. -/
structure Carries (past : Past) (tenant_id : String) (w : World) (state : EvaluationState) :
    Prop where
  owned : state.tenant_id = tenant_id
  results : ∀ r ∈ state.criteria_results, ∀ c ∈ r.citations, FromTenant past tenant_id w c
  report : ∀ report, state.report = some report →
    report.tenant_id = tenant_id ∧ HomeReport past w report

/-- The chunks that the state can still cite. -/
def citable (state : EvaluationState) : List String := state.citations_all_ids ++ evidence_ids state

def CitesHome (w : World) (state : EvaluationState) : Prop :=
  ∀ id ∈ citable state, AtHome state.tenant_id w id

structure Homely (past : Past) (tenant_id : String) (w : World) (state : EvaluationState) :
    Prop where
  carries : Carries past tenant_id w state
  cites : CitesHome w state

/-! ## What grows -/

/-- Each source is stored under its own id. -/
def Keyed (w : World) : Prop :=
  ∀ chunk_id source, SourceAt w chunk_id source → source.chunk_id = chunk_id

/-- Each new source is of the tenant, and each new report and each new waiting
state shows sources of its tenant. -/
structure Grown (past : Past) (tenant_id : String) (w t : World) : Prop where
  sourced : Sourced tenant_id w t
  keyed : Keyed w → Keyed t
  reports : ∀ id report, t.store.evaluation_reports.get? id = some report →
    w.store.evaluation_reports.get? id = some report ∨ HomeReport past t report
  waiting : ∀ thread_id state, t.interrupted thread_id = some state →
    w.interrupted thread_id = some state ∨ Carries past state.tenant_id t state

theorem FromTenant.grown {owner : String} {c : Citation} (h : FromTenant past owner w c)
    (hg : Sourced tenant_id w t) : FromTenant past owner t c := by
  intro hcontent
  obtain ⟨source, hsource, howned, hshows⟩ := h hcontent
  exact ⟨source, hsource.imp_right (hg.kept _ _), howned, hshows⟩

theorem HomeReport.grown {report : EvaluationReport} (h : HomeReport past w report)
    (hg : Sourced tenant_id w t) : HomeReport past t report := fun c hc => (h c hc).grown hg

theorem Carries.grown {owner : String} {state : EvaluationState} (h : Carries past owner w state)
    (hg : Sourced tenant_id w t) : Carries past owner t state :=
  ⟨h.owned, fun r hr c hc => (h.results r hr c hc).grown hg,
    fun report hreport => ⟨(h.report report hreport).1, (h.report report hreport).2.grown hg⟩⟩

theorem AtHome.grown {chunk_id : String} (h : AtHome tenant_id w chunk_id)
    (hg : Sourced tenant_id w t) : AtHome tenant_id t chunk_id := by
  intro source hsource
  rcases hg.own chunk_id source hsource with hold | hown
  · exact h source hold
  · exact hown

theorem Homely.grown {state : EvaluationState} (h : Homely past tenant_id w state)
    (hg : Sourced tenant_id w t) : Homely past tenant_id t state := by
  refine ⟨h.carries.grown hg, fun id hid => ?_⟩
  have hhome := h.cites id hid
  rw [h.carries.owned] at hhome ⊢
  exact hhome.grown hg

theorem sourced_refl (tenant_id : String) (w : World) : Sourced tenant_id w w :=
  ⟨fun _ _ h => h, fun _ _ h => .inl h⟩

theorem sourced_trans (h : Sourced tenant_id w t) (h' : Sourced tenant_id t t') :
    Sourced tenant_id w t' := by
  refine ⟨fun id source hs => h'.kept id source (h.kept id source hs), fun id source hs => ?_⟩
  rcases h'.own id source hs with hold | hown
  · exact h.own id source hold
  · exact .inr hown

theorem Grown.refl (past : Past) (tenant_id : String) (w : World) : Grown past tenant_id w w :=
  ⟨sourced_refl tenant_id w, fun h => h, fun _ _ h => .inl h, fun _ _ h => .inl h⟩

theorem Grown.trans (h : Grown past tenant_id w t) (h' : Grown past tenant_id t t') :
    Grown past tenant_id w t' := by
  refine ⟨sourced_trans h.sourced h'.sourced, fun hk => h'.keyed (h.keyed hk),
    fun id report hr => ?_,
    fun thread_id state hs => ?_⟩
  · rcases h'.reports id report hr with hold | hnew
    · exact (h.reports id report hold).imp_right fun hnew => hnew.grown h'.sourced
    · exact .inr hnew
  · rcases h'.waiting thread_id state hs with hold | hnew
    · exact (h.waiting thread_id state hold).imp_right fun hnew => hnew.grown h'.sourced
    · exact .inr hnew

/-! ## Writes of other kinds -/

/-- Neither reports nor waiting threads change, and sources keep their ids. -/
structure Plain (w t : World) : Prop where
  reports : t.store.evaluation_reports = w.store.evaluation_reports
  waiting : t.interrupted = w.interrupted
  keyed : Keyed w → Keyed t

theorem plain_of_write {kind : Kind} (h : Write kind w t) (hr : kind ≠ .reports)
    (hi : kind ≠ .interrupted) : Plain w t := by
  cases h with
  | wait => exact absurd rfl hi
  | store _ hstore =>
    cases hstore with
    | report => exact absurd rfl hr
    | source _ source =>
      refine ⟨rfl, rfl, fun hk chunk_id found hfound => ?_⟩
      by_cases heq : chunk_id = source.chunk_id
      · subst heq
        rw [SourceAt, Dict.get?_set_self] at hfound
        cases hfound
        rfl
      · rw [SourceAt, Dict.get?_set_of_ne _ _ heq] at hfound
        exact hk chunk_id found hfound
    | _ => exact ⟨rfl, rfl, fun h => h⟩
  | _ => exact ⟨rfl, rfl, fun h => h⟩

theorem sources_of_write {kind : Kind} (h : Write kind w t) (hs : kind ≠ .sources) :
    t.store.citation_sources = w.store.citation_sources := by
  cases h with
  | store _ hstore =>
    cases hstore with
    | source => exact absurd rfl hs
    | _ => rfl
  | _ => rfl

variable {K : List Kind}

theorem plain_of_writes {m : Act α} (h : Writes K m) (hr : .reports ∉ K) (hi : .interrupted ∉ K)
    (w : World) : Plain w (m.final w) := by
  have hplain : Keeps Plain m := Keeps.mono h fun a b ⟨kind, hkind, hwrite⟩ => by
    refine plain_of_write hwrite ?_ ?_
    · rintro rfl
      simp [hr] at hkind
    · rintro rfl
      simp [hi] at hkind
  exact hplain.final (fun _ => ⟨rfl, rfl, fun h => h⟩)
    (fun _ _ _ h h' => ⟨h'.reports.trans h.reports, h'.waiting.trans h.waiting,
      fun hk => h'.keyed (h.keyed hk)⟩) w

theorem sources_of_writes {m : Act α} (h : Writes K m) (hs : .sources ∉ K) (w : World) :
    (m.final w).store.citation_sources = w.store.citation_sources := by
  have hsame : Keeps (fun a b : World => b.store.citation_sources = a.store.citation_sources) m :=
    Keeps.mono h fun a b ⟨kind, hkind, hwrite⟩ => by
      refine sources_of_write hwrite ?_
      rintro rfl
      simp [hs] at hkind
  exact hsame.final (fun _ => rfl) (fun _ _ _ h h' => h'.trans h) w

theorem grown_of_plain (h : Plain w t) (hs : Sourced tenant_id w t) : Grown past tenant_id w t :=
  ⟨hs, h.keyed, fun _ _ hr => .inl (h.reports ▸ hr), fun _ _ hw => .inl (h.waiting ▸ hw)⟩

theorem sourced_of_same (h : t.store.citation_sources = w.store.citation_sources) :
    Sourced tenant_id w t := by
  refine ⟨fun id source hs => ?_, fun id source hs => .inl ?_⟩
  · rw [h]
    exact hs
  · rw [← h]
    exact hs

/-! ## Programs that let citations grow -/

/-- The program lets the citations grow, and what it returns has `P`. -/
def Leaves (past : Past) (tenant_id : String) (P : α → World → Prop) (m : Act α) (w : World) :
    Prop :=
  Meets AnyStep m w (fun r t => Grown past tenant_id w t ∧ ∀ a, r = .ok a → P a t)

/-- What a program returns that says nothing about its value. -/
abbrev Anything (_ : α) (_ : World) : Prop := True

section rules

variable {P : α → World → Prop} {Q : β → World → Prop} {m : Act α} {f : α → Act β}

theorem leaves_pure {a : α} (h : P a w) : Leaves past tenant_id P (pure a) w := by
  unfold Leaves
  rw [meets_pure]
  refine ⟨.refl past tenant_id w, ?_⟩
  rintro _ ⟨⟩
  exact h

theorem leaves_raise {e : PyErr} : Leaves past tenant_id P (raise e) w := by
  unfold Leaves
  rw [meets_raise]
  exact ⟨.refl past tenant_id w, by rintro _ ⟨⟩⟩

theorem leaves_read {f : World → Act β} (h : Leaves past tenant_id Q (f w) w) :
    Leaves past tenant_id Q (read >>= f) w := by
  unfold Leaves
  rw [meets_bind, meets_read, then_ok]
  exact h

theorem leaves_lift {r : Except PyErr α} : Leaves past tenant_id (fun _ t => t = w) (lift r) w := by
  unfold Leaves
  rw [meets_lift]
  exact ⟨.refl past tenant_id w, fun _ _ => rfl⟩

theorem Leaves.bind (h : Leaves past tenant_id P m w)
    (hf : ∀ a t, Grown past tenant_id w t → P a t → Leaves past tenant_id Q (f a) t) :
    Leaves past tenant_id Q (m >>= f) w := by
  refine Meets.bind h (fun a t ht => ?_) (fun e t ht => ⟨ht.1, by rintro _ ⟨⟩⟩)
  obtain ⟨hg, hP⟩ := ht
  exact Meets.post (hf a t hg (hP a rfl)) fun r t' ht' => ⟨hg.trans ht'.1, ht'.2⟩

theorem Leaves.catching {handler : PyErr → Act α} (h : Leaves past tenant_id P m w)
    (hh : ∀ e t, Grown past tenant_id w t → Leaves past tenant_id P (handler e) t) :
    Leaves past tenant_id P (catching m handler) w := by
  refine Meets.catching h (fun a t ht => ht) fun e t ht => ?_
  exact Meets.post (hh e t ht.1) fun r t' ht' => ⟨ht.1.trans ht'.1, ht'.2⟩

theorem leaves_ite {c : Prop} [Decidable c] {a b : Act α} (ha : Leaves past tenant_id P a w)
    (hb : Leaves past tenant_id P b w) : Leaves past tenant_id P (if c then a else b) w := by
  split
  · exact ha
  · exact hb

/-- Writes of other kinds let nothing grow. -/
theorem leaves_writes (h : Writes K m) (hs : .sources ∉ K) (hr : .reports ∉ K)
    (hi : .interrupted ∉ K) : Leaves past tenant_id Anything m w :=
  ⟨keeps_true m w, grown_of_plain (plain_of_writes h hr hi w)
    (sourced_of_same (sources_of_writes h hs w)), fun _ _ => trivial⟩

theorem leaves_quiet (h : Writes [] m) : Leaves past tenant_id Anything m w :=
  leaves_writes h (by simp) (by simp) (by simp)

theorem Leaves.mono {P' : α → World → Prop} (h : Leaves past tenant_id P m w)
    (hP : ∀ a t, P a t → P' a t) : Leaves past tenant_id P' m w :=
  Meets.post h fun _ t ht => ⟨ht.1, fun a ha => hP a t (ht.2 a ha)⟩

end rules

/-! ## The nodes -/

/-- The evidence that the outside can give for a tenant in this world names no
chunk that has a source of another tenant. -/
def EvidenceAtHome (env : Env) (tenant_id : String) (w : World) : Prop :=
  ∀ found : List (String × List Evidence), (∀ e ∈ found, ∃ n, env.retrieve_evidence n = .ok e.2) →
    ∀ e ∈ env.apply_report_budget found, ∀ ev ∈ e.2, ev.chunk_id ≠ "" →
      AtHome tenant_id w ev.chunk_id

theorem EvidenceAtHome.grown (h : EvidenceAtHome env tenant_id w) (hg : Sourced tenant_id w t) :
    EvidenceAtHome env tenant_id t :=
  fun found hfound e he ev hev hid => (h found hfound e he ev hev hid).grown hg

theorem mem_setEntry_of {l : List (String × List Evidence)} {cid : String}
    {evidence : List Evidence}
    {e : String × List Evidence} (h : e ∈ setEntry l cid evidence) : e ∈ l ∨ e.2 = evidence := by
  induction l with
  | nil => exact .inr (by rw [List.mem_singleton.1 h])
  | cons head rest ih =>
    unfold setEntry at h
    split at h
    · rcases List.mem_cons.1 h with rfl | hin
      · exact .inr rfl
      · exact .inl (List.mem_cons_of_mem _ hin)
    · rcases List.mem_cons.1 h with rfl | hin
      · exact .inl List.mem_cons_self
      · exact (ih hin).imp_left (List.mem_cons_of_mem _)

/-- What is gathered comes from the retrieval. -/
theorem gather_evidence.finds (env : Env) (criteria_defs : List PyVal) (w : World) :
    Leaves past tenant_id (fun found _ => ∀ e ∈ found, ∃ n, env.retrieve_evidence n = .ok e.2)
      (gather_evidence env criteria_defs) w := by
  have hloop : Meets AnyStep (gather_evidence env criteria_defs) w (fun r _ =>
      ∀ found, r = .ok found → ∀ e ∈ found, ∃ n, env.retrieve_evidence n = .ok e.2) := by
    unfold gather_evidence
    refine (meets_foldlM (I := fun found _ => ∀ e ∈ found, ∃ n, env.retrieve_evidence n = .ok e.2)
      (E := fun _ _ => True) ?_ _ _ w (by simp)).post ?_
    · intro found criteria t hfound
      refine (draw.reads t).bind ?_ (by rintro e t' ⟨he, -⟩; cases he)
      rintro n t' -
      rw [meets_bind, meets_lift]
      rcases hevidence : env.retrieve_evidence n with e | evidence
      · exact trivial
      · rw [then_ok, meets_pure]
        intro e he
        rcases mem_setEntry_of he with hold | hnew
        · exact hfound e hold
        · exact ⟨n, by rw [hevidence, hnew]⟩
    · rintro (e | found) t hI
      · rintro _ ⟨⟩
      · rintro _ ⟨⟩
        exact hI
  have hquiet : Leaves past tenant_id Anything (gather_evidence env criteria_defs) w :=
    leaves_quiet (writes_gather_evidence env criteria_defs)
  exact (Meets.and hquiet hloop).post fun r t ht => ⟨ht.1.1, ht.2⟩

theorem register_sources.leaves (env : Env) (state : EvaluationState)
    (criteria_evidence : List (String × List Evidence)) (ids : List String) (w : World) :
    Leaves past state.tenant_id Anything
      (register_citation_sources env state criteria_evidence ids) w := by
  have hsourced : Meets AnyStep (register_citation_sources env state criteria_evidence ids) w _ :=
    register_sources.spec env state criteria_evidence ids w
  have hwrites : Writes [.sources] (register_citation_sources env state criteria_evidence ids) :=
    writes_register_sources env (by simp) state criteria_evidence ids
  exact ⟨hsourced.1, grown_of_plain (plain_of_writes hwrites (by simp) (by simp) w) hsourced.2,
    fun _ _ => trivial⟩

theorem retrieve_evidence.home {state : EvaluationState} (h : Homely past tenant_id w state)
    (hevidence : EvidenceAtHome env tenant_id w) :
    Leaves past tenant_id (fun s t => Homely past tenant_id t s)
      (node_retrieve_evidence env state) w := by
  unfold node_retrieve_evidence
  refine (gather_evidence.finds env state.criteria_defs w).bind fun found t hg hfound => ?_
  have hregister : Leaves past state.tenant_id Anything _ t :=
    register_sources.leaves env state (env.apply_report_budget found)
      ((((env.apply_report_budget found).flatMap Prod.snd).map (fun ev => ev.chunk_id)).filter
        (fun id => id ≠ "")) t
  rw [h.carries.owned] at hregister
  refine hregister.bind fun _ t' hg' _ => leaves_pure ?_
  have hgrown := sourced_trans hg.sourced hg'.sourced
  refine ⟨⟨h.carries.owned, (h.carries.grown hgrown).results, (h.carries.grown hgrown).report⟩, ?_⟩
  intro id hid
  have hin : id ∈ (((env.apply_report_budget found).flatMap Prod.snd).map
      (fun ev => ev.chunk_id)).filter (fun id => id ≠ "") := by
    rcases List.mem_append.1 hid with hid | hid
    · exact hid
    · exact hid
  obtain ⟨hmem, hsome⟩ := List.mem_filter.1 hin
  obtain ⟨ev, hev, rfl⟩ := List.mem_map.1 hmem
  obtain ⟨e, he, hev⟩ := List.mem_flatMap.1 hev
  have hhome := hevidence found hfound e he ev hev (of_decide_eq_true hsome)
  show AtHome state.tenant_id t' ev.chunk_id
  rw [h.carries.owned]
  exact hhome.grown hgrown

theorem score_with_llm.home {state : EvaluationState} (h : Homely past tenant_id w state) :
    Leaves past tenant_id (fun s t => Homely past tenant_id t s)
      (node_score_with_llm env state) w := by
  have hquiet : Leaves past tenant_id Anything (node_score_with_llm env state) w :=
    leaves_quiet (writes_score_with_llm env state)
  have hfields : Meets AnyStep (node_score_with_llm env state) w (fun r _ => ∀ s, r = .ok s →
      s.tenant_id = state.tenant_id ∧ s.citations_all_ids = state.citations_all_ids ∧
        s.criteria_evidence = state.criteria_evidence ∧ s.report = state.report) := by
    unfold node_score_with_llm
    refine (Keeps.meets (keeps_true _) w).bind (fun scoring t _ => ?_) (by rintro e t - _ ⟨⟩)
    rw [meets_bind, meets_read, then_ok, meets_pure]
    rintro _ ⟨⟩
    exact ⟨rfl, rfl, rfl, rfl⟩
  refine ((Meets.and hquiet (score_with_llm.spec env state w)).and hfields).post ?_
  rintro r t ⟨⟨⟨hg, -⟩, -, hscores⟩, hsame⟩
  refine ⟨hg, fun s hs => ?_⟩
  obtain ⟨htenant, hids, hevidence, hreport⟩ := hsame s hs
  have hgrown := h.grown hg.sourced
  have hcitable : citable s = citable state := by
    unfold citable evidence_ids
    rw [hids, hevidence]
  refine ⟨⟨htenant.trans h.carries.owned, fun result hresult c hc => ?_, ?_⟩, fun id hid => ?_⟩
  · have hcites := (hscores s hs).cites result hresult
    unfold Cites resolve_citations_batch at hcites
    rw [hcites] at hc
    obtain ⟨id, hid, rfl⟩ := List.mem_map.1 hc
    have hhome := h.cites id (List.mem_append_right _ (citation_ids_evidence hid))
    rw [h.carries.owned] at hhome
    exact (resolved_home hhome false).grown hg.sourced
  · rw [hreport]
    exact hgrown.carries.report
  · rw [hcitable] at hid
    rw [htenant]
    exact hgrown.cites id hid

theorem quality_gate.home {state : EvaluationState} (h : Homely past tenant_id w state) :
    Leaves past tenant_id (fun s t => Homely past tenant_id t s)
      (node_quality_gate env state) w := by
  refine leaves_read (Leaves.bind (leaves_writes (K := [.tokens])
    (writes_issue_token env (by simp) _ _) (by simp) (by simp) (by simp)) fun _ t hg _ =>
      leaves_pure ?_)
  have hgrown := h.grown hg.sourced
  exact ⟨⟨hgrown.carries.owned, hgrown.carries.results, hgrown.carries.report⟩, hgrown.cites⟩

theorem report_home {state : EvaluationState} (h : Homely past tenant_id w state) :
    HomeReport past w (report_of w.store state) := by
  intro c hc
  show FromTenant past state.tenant_id w c
  rw [h.carries.owned]
  rcases List.mem_append.1 hc with hc | hc
  · obtain ⟨id, hid, rfl⟩ := List.mem_map.1 hc
    have hhome := h.cites id (List.mem_append_left _ hid)
    rw [h.carries.owned] at hhome
    exact resolved_home hhome true
  · obtain ⟨r, hr, hc⟩ := List.mem_flatMap.1 hc
    obtain ⟨old, hold, rfl⟩ := List.mem_map.1 hr
    rw [edited_citations] at hc
    exact h.carries.results old hold c hc

theorem finalize_report.home {state : EvaluationState} (h : Homely past tenant_id w state) :
    Leaves past tenant_id (fun s t => Homely past tenant_id t s)
      (node_finalize_report state) w := by
  refine leaves_read (leaves_pure ⟨⟨h.carries.owned, h.carries.results, ?_⟩, h.cites⟩)
  rintro _ ⟨⟩
  exact ⟨h.carries.owned, report_home h⟩

/-- The archived report cites what the report cites. -/
theorem persist_report.leaves (env : Env) {report : EvaluationReport}
    (h : HomeReport past w report) :
    Leaves past tenant_id Anything (persist_evaluation_report env report) w := by
  have hquiet : Leaves past tenant_id Anything (archive_report_to_object_storage env report) w :=
    leaves_quiet (writes_archive env report)
  have harchive : Leaves past tenant_id
      (fun archived _ => ∃ uri, archived = { report with report_uri := uri })
      (archive_report_to_object_storage env report) w := by
    have hresult : Meets AnyStep (archive_report_to_object_storage env report) w (fun r _ =>
        ∀ archived, r = .ok archived → ∃ uri, archived = { report with report_uri := uri }) :=
      ⟨keeps_true _ w, (archive.spec report w).2.2⟩
    exact Meets.post (Meets.and hquiet hresult) fun r t ht => ⟨ht.1.1, ht.2⟩
  refine harchive.bind ?_
  rintro archived t hg ⟨uri, rfl⟩
  unfold Leaves update
  rw [meets_write]
  have hsourced : Sourced tenant_id t { t with store := { t.store with
      evaluation_reports := t.store.evaluation_reports.put { report with report_uri := uri } } } :=
    sourced_of_same rfl
  refine ⟨trivial, ⟨hsourced, fun hk => hk, fun id found hfound => ?_, fun _ _ hs => .inl hs⟩,
    fun _ _ => trivial⟩
  rw [Table.get?_put] at hfound
  split at hfound
  · cases hfound
    exact .inr ((h.grown hg.sourced).grown hsourced)
  · exact .inl hfound

variable (env) in
/-- Each node keeps the state homely. Only the retrieval looks outside. -/
theorem node_fn.home {state : EvaluationState} (h : Homely past tenant_id w state) (node : Node)
    (hevidence : node = .retrieve_evidence → EvidenceAtHome env tenant_id w) :
    Leaves past tenant_id (fun s t => Homely past tenant_id t s) (node_fn env state node) w := by
  cases node with
  | load_context =>
    refine leaves_read (leaves_lift.bind ?_)
    rintro criteria_weights t - rfl
    exact leaves_pure ⟨⟨h.carries.owned, h.carries.results, h.carries.report⟩, h.cites⟩
  | retrieve_evidence => exact retrieve_evidence.home h (hevidence rfl)
  | evaluate_rules =>
    exact leaves_pure ⟨⟨h.carries.owned, h.carries.results, h.carries.report⟩, h.cites⟩
  | score_with_llm => exact score_with_llm.home h
  | quality_gate => exact quality_gate.home h
  | finalize_report => exact finalize_report.home h
  | persist_result =>
    unfold node_fn node_persist_result
    dsimp only
    split
    · exact leaves_raise
    · rename_i report hreport
      have hhome := (h.carries.report report hreport).2
      exact (persist_report.leaves env hhome).bind fun _ t hg _ => leaves_pure (h.grown hg.sourced)

theorem nodes.home {state : EvaluationState} (h : Homely past tenant_id w state)
    (hevidence : EvidenceAtHome env tenant_id w) :
    Leaves past tenant_id (fun s t => Homely past tenant_id t s)
      (run_evaluation_nodes_sequentially env state) w := by
  refine (node_fn.home env h .load_context (fun _ => hevidence)).bind fun _ t hg h => ?_
  refine (node_fn.home env h .retrieve_evidence (fun _ => hevidence.grown hg.sourced)).bind
    fun _ t _ h => ?_
  refine (node_fn.home env h .evaluate_rules (by rintro ⟨⟩)).bind fun _ t _ h => ?_
  refine (node_fn.home env h .score_with_llm (by rintro ⟨⟩)).bind fun _ t _ h => ?_
  refine (node_fn.home env h .quality_gate (by rintro ⟨⟩)).bind fun _ t _ h => ?_
  refine (node_fn.home env h .finalize_report (by rintro ⟨⟩)).bind fun _ t _ h => ?_
  exact node_fn.home env h .persist_result (by rintro ⟨⟩)

/-! ## The graph -/

theorem leaves_save (thread_id : String) {state : Option EvaluationState}
    (h : ∀ s, state = some s → Carries past s.tenant_id w s) :
    Leaves past tenant_id Anything (save_interrupted thread_id state) w := by
  unfold Leaves save_interrupted
  rw [meets_write]
  have hsourced : Sourced tenant_id w
      { w with interrupted := Function.update w.interrupted thread_id state } := sourced_of_same rfl
  refine ⟨trivial, ⟨hsourced, fun hk => hk, fun _ _ hr => .inl hr, fun thread s hs => ?_⟩,
    fun _ _ => trivial⟩
  by_cases heq : thread = thread_id
  · rw [heq] at hs
    have hstate := (Function.update_self thread_id state w.interrupted).symm.trans hs
    exact .inr ((h s hstate).grown hsourced)
  · exact .inl ((Function.update_of_ne heq state w.interrupted).symm.trans hs)

theorem leaves_forget (thread_id : String) :
    Leaves past tenant_id Anything (save_interrupted thread_id none) w :=
  leaves_save thread_id (by rintro s ⟨⟩)

theorem interrupt.leaves (id : WorkflowIdentity) (resuming : Bool) {state : EvaluationState}
    (h : Carries past tenant_id w state) :
    Leaves past tenant_id Anything (interrupt env id resuming state) w := by
  refine (leaves_quiet (writes_graph_fault env)).bind fun _ t hg _ =>
    leaves_ite (leaves_forget _) ?_
  refine Leaves.bind (leaves_save _ ?_) fun _ _ _ _ => leaves_raise
  rintro _ ⟨⟩
  rw [h.owned]
  exact h.grown hg.sourced

theorem leaves_checkpoint (env : Env) (thread_id job_id tenant node status : String)
    (payload : PyDict) :
    Leaves past tenant_id Anything
      (append_workflow_checkpoint env thread_id job_id tenant node status payload) w :=
  leaves_quiet (writes_checkpoint env _ _ _ _ _ _)

/-- The state that waits is the one before the gate. -/
theorem gate_node.home (id : WorkflowIdentity) (resuming : Bool) {state : EvaluationState}
    (h : Homely past tenant_id w state) :
    Leaves past tenant_id (fun s t => Homely past tenant_id t s)
      (quality_gate_node env id resuming state)
      w := by
  refine (quality_gate.home h).bind fun merged t hg hmerged => leaves_ite ?_ ?_
  · refine (leaves_checkpoint env _ _ _ _ _ _).bind fun _ t₁ hg₁ _ => ?_
    refine (leaves_checkpoint env _ _ _ _ _ _).bind fun _ t₂ hg₂ _ => ?_
    have hstate := (h.carries.grown hg.sourced).grown (hg₁.trans hg₂).sourced
    exact (interrupt.leaves id resuming hstate).bind fun _ t₃ hg₃ _ =>
      leaves_pure (hmerged.grown ((hg₁.trans hg₂).trans hg₃).sourced)
  · refine (leaves_checkpoint env _ _ _ _ _ _).bind fun _ t₁ hg₁ _ => leaves_ite ?_ ?_
    · exact (leaves_forget _).bind fun _ t₂ hg₂ _ =>
        leaves_pure (hmerged.grown (hg₁.trans hg₂).sourced)
    · exact leaves_pure (hmerged.grown hg₁.sourced)

theorem graph_node.home (id : WorkflowIdentity) (resuming : Bool) {state : EvaluationState}
    (h : Homely past tenant_id w state) (node : Node)
    (hevidence : node = .retrieve_evidence → EvidenceAtHome env tenant_id w) :
    Leaves past tenant_id (fun s t => Homely past tenant_id t s)
      (graph_node env id resuming state node)
      w := by
  refine (leaves_quiet (writes_graph_fault env)).bind fun _ t hg _ => leaves_ite ?_ ?_
  · exact gate_node.home id resuming (h.grown hg.sourced)
  · refine (leaves_checkpoint env _ _ _ _ _ _).bind fun _ t₁ hg₁ _ => ?_
    have hgrown := hg.trans hg₁
    exact node_fn.home env (h.grown hgrown.sourced) node fun hnode =>
      (hevidence hnode).grown hgrown.sourced

theorem graph_nodes.home (id : WorkflowIdentity) (resuming : Bool) (nodes : List Node)
    {state : EvaluationState} (h : Homely past tenant_id w state)
    (hevidence : .retrieve_evidence ∈ nodes → EvidenceAtHome env tenant_id w) :
    Leaves past tenant_id (fun s t => Homely past tenant_id t s)
      (nodes.foldlM (graph_node env id resuming) state) w := by
  induction nodes generalizing state w with
  | nil => exact leaves_pure h
  | cons node rest ih =>
    rw [List.foldlM_cons]
    refine (graph_node.home id resuming h node fun hnode =>
      hevidence (hnode ▸ List.mem_cons_self)).bind ?_
    intro s t hg hs
    exact ih hs fun hin => (hevidence (List.mem_cons_of_mem _ hin)).grown hg.sourced

theorem run_nodes.leaves (id : WorkflowIdentity) (resuming : Bool) (nodes : List Node)
    {state : EvaluationState} (h : Homely past tenant_id w state)
    (hevidence : .retrieve_evidence ∈ nodes → EvidenceAtHome env tenant_id w) :
    Leaves past tenant_id Anything
      (catching (run_nodes env id resuming nodes state) (on_interrupt env)) w := by
  refine Leaves.catching ?_ fun e t _ => leaves_quiet (writes_on_interrupt env e)
  exact (graph_nodes.home id resuming nodes h hevidence).bind fun _ t _ _ =>
    leaves_quiet (writes_graph_fault env)

/-! ## The workflows -/

theorem leaves_finish (env : Env) (job : Job) (status : JobStatus) (tenant thread_id : String)
    (evaluation_id : Option String) :
    Leaves past tenant_id Anything (finish env job status tenant thread_id evaluation_id) w :=
  leaves_writes (K := [.jobs]) (writes_finish env (by simp) _ _ _ _ _) (by simp) (by simp) (by simp)

theorem leaves_compat (env : Env) (job : Job) (status : JobStatus) (tenant thread_id : String)
    (evaluation_id : Option String) (nodes : List (String × String × PyDict)) :
    Leaves past tenant_id Anything (append_checkpoints env thread_id job tenant nodes >>= fun _ =>
      finish env job status tenant thread_id evaluation_id) w :=
  (leaves_quiet (writes_checkpoints env _ _ _ _)).bind fun _ _ _ _ => leaves_finish env _ _ _ _ _

/-- The state at the entry point cites nothing. -/
theorem initial_homely (tenant_id evaluation_id trace_id thread_id job_id : String)
    (payload : EvaluationPayload) (w : World) : Homely past tenant_id w
      (initial_state tenant_id evaluation_id trace_id thread_id job_id payload) :=
  ⟨⟨rfl, by rintro r ⟨⟩, by rintro _ ⟨⟩⟩, by rintro id ⟨⟩⟩

theorem evaluation_graph.leaves (job : Job) (hevidence : EvidenceAtHome env tenant_id w) :
    Leaves past tenant_id Anything (run_evaluation_graph env job tenant_id) w := by
  refine (leaves_quiet (writes_thread_of env job "eval")).bind fun thread_id t hg _ => ?_
  refine Leaves.catching ?_ fun e t' _ => ?_
  · refine Leaves.bind (P := Anything) ?_ fun _ t' _ _ => leaves_finish env _ _ _ _ _
    refine (leaves_forget _).bind fun _ t' hg' _ => ?_
    exact run_nodes.leaves _ false edge_order (initial_homely _ _ _ _ _ _ t')
      fun _ => hevidence.grown (hg.trans hg').sourced
  · cases e with
    | graph_interrupt => exact leaves_finish env _ _ _ _ _
    | api e => exact leaves_raise
    | raised class_name message => exact leaves_raise

theorem evaluation_run.leaves (job : Job) (hevidence : EvidenceAtHome env tenant_id w) :
    Leaves past tenant_id Anything (run_evaluation_job env job tenant_id) w := by
  refine Leaves.bind (P := Anything) ?_ fun result t _ _ => ?_
  · refine (leaves_quiet (writes_thread_of env job "eval")).bind fun thread_id t hg _ =>
      leaves_read (leaves_lift.bind ?_)
    rintro mode t' hg' rfl
    cases mode with
    | compat => exact leaves_ite (leaves_compat env _ _ _ _ _ _) (leaves_compat env _ _ _ _ _ _)
    | langgraph =>
      refine Leaves.catching (evaluation_graph.leaves job (hevidence.grown hg.sourced))
        fun e u _ => ?_
      exact leaves_ite leaves_raise (leaves_compat env _ _ _ _ _ _)
  · exact (leaves_quiet (writes_evaluation_checkpoint env _ _ _)).bind fun _ _ _ _ =>
      leaves_pure trivial

/-! ## The resume -/

/-- Each waiting state carries what is from its tenant. -/
def WaitsHome (past : Past) (w : World) : Prop :=
  ∀ thread_id state, w.interrupted thread_id = some state → Carries past state.tenant_id w state

theorem WaitsHome.grown (h : WaitsHome past w) (hg : Grown past tenant_id w t) :
    WaitsHome past t := by
  intro thread_id state hs
  rcases hg.waiting thread_id state hs with hold | hnew
  · exact (h thread_id state hold).grown hg.sourced
  · exact hnew

/-- A program that adds no source grows for any tenant. -/
theorem Leaves.same_sources {P : α → World → Prop} {m : Act α} {owner : String}
    (h : Leaves past owner P m w) (hm : Writes K m) (hs : .sources ∉ K) :
    Leaves past tenant_id P m w := by
  have hsame := sources_of_writes hm hs w
  exact ⟨h.1, ⟨sourced_of_same hsame, h.2.1.keyed, h.2.1.reports, h.2.1.waiting⟩, h.2.2⟩

theorem invoke_resume.leaves (h : WaitsHome past w) (id : WorkflowIdentity)
    (hcites : ∀ state, w.interrupted id.thread_id = some state → CitesHome w state) :
    Leaves past tenant_id Anything (invoke_resume env id) w := by
  refine leaves_read ?_
  cases hwaiting : w.interrupted id.thread_id with
  | none => exact leaves_quiet (writes_graph_fault env)
  | some state =>
    have hhomely : Homely past state.tenant_id w state :=
      ⟨h _ state hwaiting, hcites state hwaiting⟩
    have hrun : Leaves past state.tenant_id Anything
        (catching (run_nodes env id true after_interrupt state) (on_interrupt env)) w :=
      run_nodes.leaves id true after_interrupt hhomely fun hin => absurd hin retrieves_nothing
    exact hrun.same_sources (K := [.tokens, .reports, .interrupted])
      (writes_after_interrupt env (by decide) (by decide) (by decide) id state) (by decide)

/-- The states that wait at the thread of the job can cite no source of another
tenant. A job without a thread gets a new one. -/
def ResumesHome (job : Job) (w : World) : Prop :=
  ∀ thread_id state, job.thread_id = "" ∨ job.thread_id = thread_id →
    w.interrupted thread_id = some state → CitesHome w state

theorem ResumesHome.same {job : Job} (h : ResumesHome job w) (hi : t.interrupted = w.interrupted)
    (hs : t.store.citation_sources = w.store.citation_sources) : ResumesHome job t := by
  intro thread_id state hthread hwaits id hid source hsource
  rw [hi] at hwaits
  rw [SourceAt, hs] at hsource
  exact h thread_id state hthread hwaits id hid source hsource

theorem thread_of.leaves (job : Job) (kind : String) :
    Leaves past tenant_id (fun thread_id t => (job.thread_id = "" ∨ job.thread_id = thread_id) ∧
      t.interrupted = w.interrupted ∧ t.store.citation_sources = w.store.citation_sources)
      (thread_of env job kind) w := by
  have hwrites : Writes [] (thread_of env job kind) := writes_thread_of env job kind
  have hplain := plain_of_writes hwrites (by simp) (by simp) w
  have hsources := sources_of_writes hwrites (by simp) w
  have hquiet : Leaves past tenant_id Anything (thread_of env job kind) w := leaves_quiet hwrites
  refine ⟨hquiet.1, hquiet.2.1, fun thread_id hthread => ⟨?_, hplain.waiting, hsources⟩⟩
  by_cases hempty : job.thread_id = ""
  · exact .inl hempty
  · unfold thread_of at hthread
    rw [if_neg hempty] at hthread
    cases hthread
    exact .inr rfl

theorem resume_graph.leaves (h : WaitsHome past w) (job : Job) (hresumes : ResumesHome job w)
    (tenant : String) : Leaves past tenant_id Anything (run_resume_graph env job tenant) w := by
  refine (thread_of.leaves job "resume").bind ?_
  rintro thread_id t hg ⟨hthread, hi, hs⟩
  refine Leaves.bind (P := Anything) (Leaves.catching ?_ fun e u _ => ?_) fun _ u _ _ =>
    leaves_finish env _ _ _ _ _
  · exact invoke_resume.leaves (h.grown hg) _ fun state hstate =>
      (hresumes.same hi hs) thread_id state hthread hstate
  · cases e with
    | graph_interrupt => exact leaves_raise
    | api e => exact leaves_raise
    | raised class_name message => exact leaves_raise

theorem resume_run.leaves (h : WaitsHome past w) (job : Job) (hresumes : ResumesHome job w)
    (tenant : String) : Leaves past tenant_id Anything (run_resume_job env job tenant) w := by
  refine Leaves.bind (P := Anything) ?_ fun result t _ _ => ?_
  · refine (thread_of.leaves job "resume").bind ?_
    rintro thread_id t hg ⟨-, hi, hs⟩
    refine leaves_lift.bind ?_
    rintro mode t' - rfl
    have hcompat : ∀ u,
        Leaves past tenant_id Anything (run_resume_compat env job tenant thread_id) u :=
      fun _ => leaves_compat env _ _ _ _ _ _
    cases mode with
    | compat => exact hcompat _
    | langgraph =>
      refine Leaves.catching (resume_graph.leaves (h.grown hg) job (hresumes.same hi hs) tenant) ?_
      exact fun e u _ => leaves_ite leaves_raise (hcompat u)
  · exact (leaves_checkpoint env _ _ _ _ _ _).bind fun _ _ _ _ => leaves_pure trivial

end bid_evaluation.citation_steps
