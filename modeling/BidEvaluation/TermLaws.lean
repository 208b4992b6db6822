-- The laws of the required and the forbidden terms. The filters read the text
-- that is registered for the id of a candidate, also where the candidate has
-- a text of its own.
import BidEvaluation.RetrievalSteps

open dict_lib stepwise bid_evaluation.values bid_evaluation.core bid_evaluation.store_retrieval
  bid_evaluation.admin_store bid_evaluation.reranker bid_evaluation.retrieval
  bid_evaluation.retrieval_steps

namespace bid_evaluation.term_laws

/-! ## Texts and terms -/

/-- The text has all required terms and none of the forbidden ones. -/
structure Satisfies (env : RetrievalEnv) (args : RetrievalArgs) (text : String) : Prop where
  required : ∀ term ∈ terms env args.must_include_terms, contains text term = true
  forbidden : ∀ term ∈ terms env args.must_exclude_terms, contains text term = false

/-- The text that an item carries, or else the one of its source. -/
def text_for (env : RetrievalEnv) (s : Store) (item : Item) : String :=
  match item.text with
  | some text => env.lower (text.toStr env.core.repr)
  | none => source_text env s item

variable {env : RetrievalEnv} {suppliers : List Supplier} {args : RetrievalArgs} {s : Store}
  {w : World} {items : List Item} {item : Item}

/-- The filters leave the items whose source has a text that satisfies the
terms. -/
theorem mem_with_terms : item ∈ with_terms env s args items ↔
    item ∈ items ∧ Satisfies env args (source_text env s item) := by
  unfold with_terms
  simp only [List.mem_filter, List.all_eq_true, Bool.not_eq_eq_eq_not, Bool.not_true, and_assoc]
  constructor
  · rintro ⟨hin, hrequired, hforbidden⟩
    exact ⟨hin, hrequired, hforbidden⟩
  · rintro ⟨hin, hrequired, hforbidden⟩
    exact ⟨hin, hrequired, hforbidden⟩

/-! ## The law -/

/-- Every item that is returned satisfies the terms, and no candidate that
does is filtered out. -/
structure TermsHonoured (env : RetrievalEnv) (suppliers : List Supplier) (args : RetrievalArgs)
    (w : World) : Prop where
  sound : AllReturned env suppliers args w fun item => Satisfies env args (text_for env w.store item)
  complete : ∀ merged, merged_candidates env suppliers args w = .ok merged → ∀ item ∈ merged,
    Satisfies env args (text_for env w.store item) → item ∈ with_terms env w.store args merged

/-- A candidate with a text of its own satisfies the terms by this text when
and only when it does by the text of its source. -/
def TextsAgree (env : RetrievalEnv) (suppliers : List Supplier) (args : RetrievalArgs)
    (w : World) : Prop :=
  ∀ merged, merged_candidates env suppliers args w = .ok merged → ∀ item ∈ merged,
    ∀ text, item.text = some text →
      (Satisfies env args (env.lower (text.toStr env.core.repr)) ↔
        Satisfies env args (source_text env w.store item))

/-- With agreement both texts of any candidate decide the same. -/
theorem agree_iff {merged : List Item} :
    (∀ item ∈ merged, ∀ text, item.text = some text →
      (Satisfies env args (env.lower (text.toStr env.core.repr)) ↔
        Satisfies env args (source_text env s item))) ↔
    ∀ item ∈ merged, (Satisfies env args (text_for env s item) ↔
      Satisfies env args (source_text env s item)) := by
  unfold text_for
  constructor
  · intro h item hin
    rcases htext : item.text with _ | text
    · exact Iff.rfl
    · exact h item hin text htext
  · intro h item hin text htext
    have hitem := h item hin
    rw [htext] at hitem
    exact hitem

/-- The terms are honoured, whatever the query cuts off, exactly when the
texts of the candidates agree with those of their sources. -/
theorem terms_honoured_iff (env : RetrievalEnv) (suppliers : List Supplier) (args : RetrievalArgs)
    (w : World) : TermsHonoured env suppliers args w ↔ TextsAgree env suppliers args w := by
  have hsound : AllReturned env suppliers args w
      (fun item => Satisfies env args (text_for env w.store item)) ↔
      ∀ merged, merged_candidates env suppliers args w = .ok merged →
        ∀ item ∈ with_terms env w.store args merged, Satisfies env args (text_for env w.store item) :=
    all_returned_iff fun item r => Iff.rfl
  constructor
  · rintro ⟨hreturned, hcomplete⟩ merged hmerged
    rw [agree_iff]
    intro item hin
    constructor
    · intro htext
      exact (mem_with_terms.1 (hcomplete merged hmerged item hin htext)).2
    · intro hsource
      exact hsound.1 hreturned merged hmerged item (mem_with_terms.2 ⟨hin, hsource⟩)
  · intro hagree
    constructor
    · rw [hsound]
      intro merged hmerged item hin
      obtain ⟨hin, hsource⟩ := mem_with_terms.1 hin
      exact (agree_iff.1 (hagree merged hmerged) item hin).2 hsource
    · intro merged hmerged item hin htext
      exact mem_with_terms.2 ⟨hin, (agree_iff.1 (hagree merged hmerged) item hin).1 htext⟩

/-- A row of the index about a chunk that no source is registered for. -/
def row_with_text (text : String) : PyVal :=
  .dict [("chunk_id", .str "ck_1"), ("text", .str text),
    ("metadata", .dict [("tenant_id", .str "acme"), ("project_id", .str "prj_1"),
      ("supplier_id", .str "sup_1")])]

def one_row : PyVal := .dict [("items", .list [row_with_text "warranty: two years"])]

def unregistered : RetrievalEnv := { scope_laws.two_rows with query_index := fun _ => .answered one_row }

def warranty_args (must_include_terms must_exclude_terms : List String) : RetrievalArgs :=
  { scope_laws.acme_args with
    must_include_terms := must_include_terms
    must_exclude_terms := must_exclude_terms }

def warranty_item : Item where
  chunk_id := .str "ck_1"
  score_raw := 1 / 2
  reason := "matched retrieval intent"
  metadata := ⟨.str "acme", .str "prj_1", .str "sup_1", .none, .none, 1, default_bbox⟩
  text := some (.str "warranty: two years")
  score_rerank := none

theorem warranty_candidates (must_include_terms must_exclude_terms : List String) :
    merged_candidates unregistered [] (warranty_args must_include_terms must_exclude_terms)
      World.start = .ok [warranty_item] :=
  show merged_candidates unregistered [] scope_laws.acme_args World.start = _ from rfl

/-- The text has the word, and the candidate is dropped where the word is
required and returned where it is forbidden. -/
theorem own_text_is_not_read :
    ¬TermsHonoured unregistered [] (warranty_args ["warranty"] []) World.start ∧
      ¬TermsHonoured unregistered [] (warranty_args [] ["warranty"]) World.start := by
  constructor
  · intro h
    have htext : Satisfies unregistered (warranty_args ["warranty"] [])
        (text_for unregistered World.start.store warranty_item) :=
      ⟨by decide +kernel, by decide +kernel⟩
    have hkept := h.complete _ (warranty_candidates _ _) _ List.mem_cons_self htext
    have hsource := (mem_with_terms.1 hkept).2.required "warranty" (by decide +kernel)
    revert hsource
    decide +kernel
  · intro h
    have hkept : warranty_item ∈ with_terms unregistered World.start.store
        (warranty_args [] ["warranty"]) [warranty_item] :=
      mem_with_terms.2 ⟨List.mem_cons_self, by decide +kernel, by decide +kernel⟩
    have hreturned := (all_returned_iff fun item r => Iff.rfl).1 h.sound _ (warranty_candidates _ _) _ hkept
    have htext := hreturned.forbidden "warranty" (by decide +kernel)
    revert htext
    decide +kernel

end bid_evaluation.term_laws
