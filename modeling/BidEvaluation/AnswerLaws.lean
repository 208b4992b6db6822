-- The laws of a bad answer of the index. The call of the service is guarded,
-- but the rows of its answer are converted after it, and what a conversion
-- raises goes up to the query and to the evaluation.
import BidEvaluation.RetrievalSteps

open dict_lib stepwise bid_evaluation.values bid_evaluation.core bid_evaluation.store_retrieval
  bid_evaluation.admin_store bid_evaluation.reranker bid_evaluation.retrieval
  bid_evaluation.retrieval_steps
open bid_evaluation.operations (calm_env)

namespace bid_evaluation.answer_laws

/-! ## Evidence -/

structure IndexEvidence where
  chunk_id : String
  page : Int
  bbox : PyVal
  text : PyVal
  score_raw : Rat
  tenant_id : String
  supplier_id : String
  document_id : String

/-- An item as evidence, if it has an id. -/
def evidence_of_item (env : Env) (args : RetrievalArgs) (item : Item) : Option IndexEvidence :=
  let chunk_id := (item.chunk_id.or (.str "")).toStr env.repr
  if chunk_id = "" then none
  else some {
    chunk_id := chunk_id
    page := item.metadata.page
    bbox := item.metadata.bbox
    text := item.text.getD (.str "")
    score_raw := item.score_raw
    tenant_id := args.tenant_id
    supplier_id := args.supplier_id
    document_id := item.metadata.document_id.toStr env.repr }

/-- The first part of `_retrieve_evidence_for_criteria`, which asks the
index. With no evidence from it another part goes on. -/
def index_evidence (env : RetrievalEnv) (args : RetrievalArgs) : Act (List IndexEvidence) :=
  if args.project_id ≠ "" ∧ args.supplier_id ≠ "" then do
    let chroma_results ← query_lightrag env args
    pure ((chroma_results.getD []).filterMap (evidence_of_item env.core args))
  else pure []

/-! ## Rows that can be converted -/

/-- The row is of the tenant, the project and the supplier of the caller. -/
def OfCaller (args : RetrievalArgs) (metadata : PyDict) : Prop :=
  metadata.get "tenant_id" = .str args.tenant_id ∧ metadata.get "project_id" = .str args.project_id ∧
    metadata.get "supplier_id" = .str args.supplier_id

/-- What a row of the caller needs: a type that a set can look for, and then a
score that `float` takes and a page that `int` takes. -/
structure Converts (env : Env) (args : RetrievalArgs) (row : PyDict) : Prop where
  doc_type : args.doc_scope ≠ [] → Hashable ((row_metadata row).get "doc_type")
  score_raw : OfDocScope args.doc_scope ((row_metadata row).get "doc_type") →
    ∃ score, (PyDict.getD row "score_raw" (.float (1 / 2))).float_of env.float_of_str = .ok score
  page : OfDocScope args.doc_scope ((row_metadata row).get "doc_type") →
    ∃ page, ((row_metadata row).getD "page" (.int 1)).toInt = .ok page

/-- What the code needs of an answer. Only the client of a service checks that
the answer is an object. -/
def Readable (env : RetrievalEnv) (args : RetrievalArgs) : PyVal → Prop
  | .dict result => ∀ rows, PyDict.get result "items" = .list rows → ∀ row, PyVal.dict row ∈ rows →
      OfCaller args (row_metadata row) → Converts env.core args row
  | _ => env.lightrag_dsn = true

/-! ## One row -/

variable {env : Env} {args : RetrievalArgs} {row metadata : PyDict}

theorem is_str_iff {x : PyVal} {s : String} : is_str x s = true ↔ x = .str s := by
  constructor
  · exact scope_laws.eq_of_is_str
  · rintro rfl
    exact decide_eq_true rfl

/-- A row of another caller is passed over. -/
theorem index_row_other (h : ¬OfCaller args (row_metadata row)) : Yields (index_row env args (.dict row)) := by
  unfold index_row
  dsimp only
  by_cases htenant : is_str ((row_metadata row).get "tenant_id") args.tenant_id = true
  · by_cases hproject : is_str ((row_metadata row).get "project_id") args.project_id = true
    · by_cases hsupplier : is_str ((row_metadata row).get "supplier_id") args.supplier_id = true
      · exact absurd ⟨is_str_iff.1 htenant, is_str_iff.1 hproject, is_str_iff.1 hsupplier⟩ h
      · simp [htenant, hproject, hsupplier]
    · simp [htenant, hproject]
  · simp [htenant]

theorem index_row_yields : Yields (index_row env args (.dict row)) ↔
    (OfCaller args (row_metadata row) → Converts env args row) := by
  by_cases hcaller : OfCaller args (row_metadata row)
  · obtain ⟨htenant, hproject, hsupplier⟩ := id hcaller
    unfold index_row
    simp only [is_str_iff.2 htenant, is_str_iff.2 hproject, is_str_iff.2 hsupplier, Bool.not_true,
      Bool.false_eq_true, if_false, hcaller, true_implies]
    rw [yields_bind]
    constructor
    · rintro ⟨inside, hinside, hrest⟩
      have hconverted : OfDocScope args.doc_scope ((row_metadata row).get "doc_type") →
          Yields ((PyDict.getD row "score_raw" (.float (1 / 2))).float_of env.float_of_str) ∧
            Yields ((row_metadata row).getD "page" (.int 1)).toInt := by
        intro hscope
        rw [(in_doc_scope_iff hinside).2 hscope] at hrest
        obtain ⟨score, hscore, hrest⟩ := yields_bind.1 hrest
        obtain ⟨page, hpage, -⟩ := yields_bind.1 hrest
        exact ⟨⟨score, hscore⟩, ⟨page, hpage⟩⟩
      exact ⟨in_doc_scope_yields.1 ⟨inside, hinside⟩, fun h => (hconverted h).1,
        fun h => (hconverted h).2⟩
    · intro hconverts
      obtain ⟨inside, hinside⟩ := in_doc_scope_yields.2 hconverts.doc_type
      refine ⟨inside, hinside, ?_⟩
      cases inside with
      | false => exact yields_pure _
      | true =>
        have hscope := (in_doc_scope_iff hinside).1 rfl
        obtain ⟨score, hscore⟩ := hconverts.score_raw hscope
        obtain ⟨page, hpage⟩ := hconverts.page hscope
        simp only [Bool.not_true, Bool.false_eq_true, if_false]
        rw [hscore, hpage]
        exact yields_pure _
  · exact ⟨fun _ h => absurd h hcaller, fun _ => index_row_other hcaller⟩

/-! ## The law -/

theorem rows_yield {rows : List PyVal} : Yields (rows.mapM (index_row env args)) ↔
    ∀ row, PyVal.dict row ∈ rows → OfCaller args (row_metadata row) → Converts env args row := by
  rw [yields_mapM]
  constructor
  · intro h row hin
    exact index_row_yields.1 (h _ hin)
  · intro h value hin
    cases value with
    | dict row => exact index_row_yields.2 (h row hin)
    | _ => exact yields_ok none

theorem items_yield {result : PyDict} : Yields (items_of_result env args result) ↔
    ∀ rows, PyDict.get result "items" = .list rows → ∀ row, PyVal.dict row ∈ rows →
      OfCaller args (row_metadata row) → Converts env args row := by
  unfold items_of_result
  cases hitems : PyDict.get result "items" with
  | list rows =>
    dsimp only
    rw [yields_bind_iff fun found _ => yields_pure _, rows_yield]
    simp
  | _ => simp

variable {renv : RetrievalEnv} {w : World}

theorem ok_bind (a : α) (f : α → Except ε β) : (Except.ok a >>= f) = f a := rfl

theorem query_lightrag_yields {name : String} {answer : PyVal}
    (hname : (retrieval_index_name renv.core args.tenant_id args.project_id).result w = .ok name)
    (hanswer : renv.query_index w.draws = .answered answer) :
    Yields ((query_lightrag renv args).result w) ↔ Readable renv args answer := by
  rw [query_lightrag_result, hname, ok_bind]
  unfold index_result
  rw [hanswer]
  cases answer with
  | dict result =>
    change _ ↔ ∀ rows, PyDict.get result "items" = .list rows → _
    rw [← items_yield]
    dsimp only
    have hget : ∀ value, lookupEntry result "items" = some value → PyDict.get result "items" = value := by
      intro value hvalue
      unfold PyDict.get PyDict.getD
      rw [hvalue]
      rfl
    rcases hlookup : lookupEntry result "items" with _ | value
    · exact Iff.rfl
    · cases value with
      | list rows => exact Iff.rfl
      | _ =>
        -- The client of a service drops an answer without a list of items.
        have hitems : Yields (items_of_result renv.core args result) := by
          rw [items_yield, hget _ hlookup]
          rintro _ ⟨⟩
        by_cases hdsn : renv.lightrag_dsn = true
        · exact iff_of_true (by simp [hdsn, bind, Except.bind]) hitems
        · exact iff_of_true (by simpa [hdsn, bind, Except.bind] using hitems) hitems
  | _ =>
    by_cases hdsn : renv.lightrag_dsn = true
    · exact iff_of_true (by simp [hdsn, bind, Except.bind]) hdsn
    · exact iff_of_false (by simp [hdsn, bind, Except.bind]) hdsn

/-- The evidence retrieval raises what the query of the index raises. -/
theorem index_evidence_yields (hids : args.project_id ≠ "" ∧ args.supplier_id ≠ "") :
    Yields ((index_evidence renv args).result w) ↔ Yields ((query_lightrag renv args).result w) := by
  unfold index_evidence
  rw [if_pos hids]
  rcases hquery : (query_lightrag renv args).result w with e | found
  · rw [result_bind_error hquery]
    exact iff_of_false (not_yields_error e) (not_yields_error e)
  · rw [result_bind hquery]
    exact iff_of_true (yields_ok _) (yields_ok _)

/-- The index query and the evidence retrieval return a value for this answer. -/
def Degrades (env : RetrievalEnv) (args : RetrievalArgs) (w : World) : Prop :=
  Yields ((query_lightrag env args).result w) ∧
    (args.project_id ≠ "" ∧ args.supplier_id ≠ "" → Yields ((index_evidence env args).result w))

/-- A row of the caller with a score of JSON `null`. -/
def null_score : PyVal :=
  .dict [("items", .list [.dict [("chunk_id", .str "ck_1"), ("score_raw", .none),
    ("metadata", .dict [("tenant_id", .str "acme"), ("project_id", .str "prj_1"),
      ("supplier_id", .str "sup_1")])]])]

def null_score_env : RetrievalEnv :=
  { scope_laws.two_rows with query_index := fun _ => .answered null_score }

end bid_evaluation.answer_laws
