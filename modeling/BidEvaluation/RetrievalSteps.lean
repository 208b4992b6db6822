-- What one retrieval does, once for all of its laws: it merges what the
-- index and the structured query found, filters it by terms, ranks it and
-- cuts it. No part of it writes the store.
import BidEvaluation.ScopeLaws

open dict_lib stepwise bid_evaluation.values bid_evaluation.core bid_evaluation.store_retrieval
  bid_evaluation.admin_store bid_evaluation.reranker bid_evaluation.retrieval

namespace bid_evaluation.retrieval_steps

variable {env : RetrievalEnv} {suppliers : List Supplier} {args : RetrievalArgs} {w : World}

/-! ## The types in the scope -/

/-- A value that a set can look for. -/
def Hashable : PyVal → Prop
  | .list _ | .dict _ => False
  | _ => True

theorem hash_key_yields {x : PyVal} : Yields (hash_key x) ↔ Hashable x := by
  cases x <;> simp [hash_key, Hashable]

/-- An empty scope has all types. -/
def OfDocScope (doc_scope : List String) (doc_type : PyVal) : Prop :=
  doc_scope = [] ∨ ∃ t ∈ doc_scope, doc_type = .str t

theorem in_doc_scope_yields {doc_scope : List String} {x : PyVal} :
    Yields (in_doc_scope doc_scope x) ↔ (doc_scope ≠ [] → Hashable x) := by
  unfold in_doc_scope
  by_cases hscope : doc_scope = []
  · simp [hscope]
  · rw [if_neg hscope, yields_bind_iff fun key _ => yields_pure _, hash_key_yields]
    simp [hscope]

/-- Of the values that can be looked for, only a text is one of the scope. -/
theorem in_doc_scope_iff {doc_scope : List String} {x : PyVal} {inside : Bool}
    (h : in_doc_scope doc_scope x = .ok inside) : inside = true ↔ OfDocScope doc_scope x := by
  unfold in_doc_scope at h
  unfold OfDocScope
  by_cases hscope : doc_scope = []
  · rw [if_pos hscope] at h
    cases h
    simp [hscope]
  · rw [if_neg hscope] at h
    cases x with
    | list items => cases h
    | dict entries => cases h
    | _ =>
      cases h
      simp [hscope]

/-! ## The store stays -/

def SameStore (w w' : World) : Prop := w'.store = w.store

theorem draw_keeps : Keeps SameStore draw :=
  keeps_bind keeps_read fun _ => keeps_bind (keeps_write fun _ => rfl) fun _ => keeps_pure _

/-- The name of the index is made without a write. -/
theorem index_name_quiet (env : Env) (tenant_id project_id : String) :
    Keeps (fun w w' : World => w' = w) (retrieval_index_name env tenant_id project_id) := by
  have hsegment : ∀ value field_name, Keeps (fun w w' : World => w' = w)
      (validate_index_segment value field_name) := by
    intro value field_name
    unfold validate_index_segment
    exact keeps_ite (keeps_pure _) (keeps_raise _)
  exact keeps_bind (hsegment _ _) fun _ => keeps_bind (hsegment _ _) fun _ => keeps_pure _

theorem index_name_final (env : Env) (tenant_id project_id : String) (w : World) :
    (retrieval_index_name env tenant_id project_id).final w = w :=
  (index_name_quiet env tenant_id project_id).final (fun _ => rfl)
    (fun _ _ _ hab hbc => Eq.trans hbc hab) w

theorem query_lightrag_keeps (env : RetrievalEnv) (args : RetrievalArgs) :
    Keeps SameStore (query_lightrag env args) := by
  unfold query_lightrag
  have hname : Keeps SameStore (retrieval_index_name env.core args.tenant_id args.project_id) :=
    (index_name_quiet _ _ _).mono fun _ _ hsame => congrArg World.store hsame
  refine keeps_bind hname fun _ => keeps_bind draw_keeps fun n => ?_
  refine keeps_bind (keeps_lift _) fun result => ?_
  rcases result with _ | result
  · exact keeps_pure _
  · dsimp only
    split
    · exact keeps_bind (keeps_lift _) fun _ => keeps_pure _
    · exact keeps_pure _

theorem store_stays {m : Act α} (h : Keeps SameStore m) (w : World) : (m.final w).store = w.store :=
  h.final (fun _ => rfl) (fun _ _ _ hab hbc => Eq.trans hbc hab) w

/-! ## The spec of a query -/

/-- The items of an answer that is a dictionary. -/
def items_of_result (env : Env) (args : RetrievalArgs) (result : PyDict) :
    Except PyErr (Option (List Item)) :=
  match PyDict.get result "items" with
  | .list rows => do
    let found ← rows.mapM (index_row env args)
    pure (some (found.filterMap id))
  | _ => pure (some [])

/-- A query of the index is the call of the service and then the conversion of
its rows. -/
theorem query_lightrag_result (env : RetrievalEnv) (args : RetrievalArgs) (w : World) :
    (query_lightrag env args).result w = (do
      let _ ← (retrieval_index_name env.core args.tenant_id args.project_id).result w
      match ← index_result env w.draws with
      | none => pure none
      | some result => items_of_result env.core args result) := by
  have hdraw : draw.result w = .ok w.draws := rfl
  unfold query_lightrag items_of_result
  rcases hname : (retrieval_index_name env.core args.tenant_id args.project_id).result w with e | name
  · exact result_bind_error hname
  · rw [result_bind hname, index_name_final, result_bind hdraw]
    rcases index_result env w.draws with e | _ | result
    · rfl
    · rfl
    · change Prog.result (match PyDict.get result "items" with
        | .list rows => _
        | _ => _) _ = (match PyDict.get result "items" with
        | .list rows => _
        | _ => _)
      split
      · rename_i rows _
        change (lift (rows.mapM (index_row env.core args)) >>= _).result _ = _
        rcases rows.mapM (index_row env.core args) with e | found
        · rfl
        · rfl
      · rfl

/-- What the index found, or what the citation sources have for it. -/
def first_candidates (env : RetrievalEnv) (args : RetrievalArgs) (w : World) : Except PyErr (List Item) := do
  let answered ← (query_lightrag env args).result w
  found_candidates w.store args answered

/-- What the term filters get. -/
def merged_candidates (env : RetrievalEnv) (suppliers : List Supplier) (args : RetrievalArgs)
    (w : World) : Except PyErr (List Item) := do
  let candidates ← first_candidates env args w
  with_structured env.core w.store suppliers args candidates

/-- What a query returns that merged these candidates. -/
def retrieved_of (env : RetrievalEnv) (args : RetrievalArgs) (w : World) (index_name : String)
    (merged : List Item) : Retrieved :=
  let ranked := ranked_items env args (with_terms env w.store args merged)
  let items := up_to args.top_k ranked.1
  { query := args.query
    query_type := args.query_type
    selected_mode := select_retrieval_mode args.query_type args.high_risk
    index_name := index_name
    degraded := ranked.2.isSome
    degrade_reason := ranked.2
    items := items
    total := items.length }

/-- A query returns exactly when its index has a name and its candidates can
be merged. -/
theorem retrieval_query.spec (env : RetrievalEnv) (suppliers : List Supplier) (args : RetrievalArgs)
    (w : World) : (retrieval_query env suppliers args).result w = (do
      let index_name ← (retrieval_index_name env.core args.tenant_id args.project_id).result w
      let merged ← merged_candidates env suppliers args w
      pure (retrieved_of env args w index_name merged)) := by
  unfold retrieval_query merged_candidates first_candidates
  rcases hname : (retrieval_index_name env.core args.tenant_id args.project_id).result w with e | name
  · exact result_bind_error hname
  · rw [result_bind hname, index_name_final]
    rcases hanswered : (query_lightrag env args).result w with e | answered
    · exact result_bind_error hanswered
    · rw [result_bind hanswered, result_read, store_stays (query_lightrag_keeps env args)]
      change _ = ((found_candidates w.store args answered >>= fun candidates =>
        with_structured env.core w.store suppliers args candidates) >>= fun merged =>
          pure (retrieved_of env args w name merged))
      rcases found_candidates w.store args answered with e | candidates
      · rfl
      · change (lift (with_structured env.core w.store suppliers args candidates) >>= _).result _ =
          (with_structured env.core w.store suppliers args candidates >>= _)
        rcases with_structured env.core w.store suppliers args candidates with e | merged
        · rfl
        · rfl

theorem retrieved_iff {retrieved : Retrieved} :
    (retrieval_query env suppliers args).result w = .ok retrieved ↔ ∃ index_name merged,
      (retrieval_index_name env.core args.tenant_id args.project_id).result w = .ok index_name ∧
      merged_candidates env suppliers args w = .ok merged ∧
      retrieved = retrieved_of env args w index_name merged := by
  rw [retrieval_query.spec]
  rcases (retrieval_index_name env.core args.tenant_id args.project_id).result w with e | name
  · simp [bind, Except.bind]
  · rcases merged_candidates env suppliers args w with e | merged
    · simp [bind, Except.bind]
    · simp [bind, Except.bind, pure, Except.pure, eq_comm]

/-! ## All cuts of a query

A ranking and a cut only choose among the items that the term filters left.
What holds of the choice for all settings holds of the items. -/

/-- The query with another cut, and with or without the reranker. -/
def with_cut (args : RetrievalArgs) (top_k : Int) (enable_rerank : Bool) : RetrievalArgs :=
  { args with top_k := top_k, enable_rerank := enable_rerank }

/-- Every item that the query returns for some cut. -/
def AllReturned (env : RetrievalEnv) (suppliers : List Supplier) (args : RetrievalArgs) (w : World)
    (P : Item → Prop) : Prop :=
  ∀ top_k enable_rerank retrieved,
    (retrieval_query env suppliers (with_cut args top_k enable_rerank)).result w = .ok retrieved →
      ∀ item ∈ retrieved.items, P item

theorem name_of_merged {merged : List Item} (h : merged_candidates env suppliers args w = .ok merged) :
    ∃ name, (retrieval_index_name env.core args.tenant_id args.project_id).result w = .ok name := by
  rcases hname : (retrieval_index_name env.core args.tenant_id args.project_id).result w with e | name
  · have hquery : (query_lightrag env args).result w = .error e := result_bind_error hname
    unfold merged_candidates first_candidates at h
    rw [hquery] at h
    cases h
  · exact ⟨name, rfl⟩

theorem all_returned_iff {P : Item → Prop} (hrank : ∀ item r, P { item with score_rerank := r } ↔ P item) :
    AllReturned env suppliers args w P ↔
      ∀ merged, merged_candidates env suppliers args w = .ok merged →
        ∀ item ∈ with_terms env w.store args merged, P item := by
  constructor
  · intro h merged hmerged item hin
    obtain ⟨name, hname⟩ := name_of_merged hmerged
    -- A cut that is long enough, without the reranker, returns all items.
    have hreturned := h (with_terms env w.store args merged).length false _
      (retrieved_iff.2 ⟨name, merged, hname, hmerged, rfl⟩) { item with score_rerank := some none }
    rw [hrank] at hreturned
    apply hreturned
    have hlength : (unranked (with_terms env w.store args merged)).length =
        (with_terms env w.store args merged).length := by
      unfold unranked sorted_by
      rw [List.length_insertionSort, List.length_map]
    have hall : (retrieved_of env (with_cut args (with_terms env w.store args merged).length false) w
        name merged).items = unranked (with_terms env w.store args merged) := by
      change up_to ((with_terms env w.store args merged).length : Int) (unranked _) = _
      unfold up_to
      rw [if_pos (Int.natCast_nonneg _), Int.toNat_natCast]
      exact List.take_of_length_le hlength.le
    rw [hall]
    exact scope_laws.mem_sorted_by.2 (List.mem_map.2 ⟨item, hin, rfl⟩)
  · intro h top_k enable_rerank retrieved hretrieved item hin
    obtain ⟨name, merged, -, hmerged, rfl⟩ := retrieved_iff.1 hretrieved
    obtain ⟨old, hold, r, rfl⟩ := scope_laws.ranked_items.spec env _ _ item (scope_laws.mem_up_to hin)
    exact (hrank old r).2 (h merged hmerged old hold)

end bid_evaluation.retrieval_steps
