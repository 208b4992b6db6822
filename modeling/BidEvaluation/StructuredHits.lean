-- `sql_whitelist.py` over the rows that the store keeps, and its law: the hits
-- of a structured query are the chunks of the suppliers that match.
import BidEvaluation.DocScopeLaws

open dict_lib stepwise bid_evaluation.values bid_evaluation.core bid_evaluation.store_retrieval
  bid_evaluation.admin_store bid_evaluation.reranker bid_evaluation.retrieval
  bid_evaluation.doc_scope_laws
open bid_evaluation.operations (calm_env)

namespace bid_evaluation.structured_hits

/-! ## The query -/

/-- `_get_supplier_field`. A supplier is any dictionary here, and a field of
the supplier itself goes before one of its qualification. -/
def get_row_field (supplier : PyDict) (field : String) : PyVal :=
  match lookupEntry supplier field with
  | some value => value
  | none =>
    match (supplier.get "qualification").or (.dict []) with
    | .dict qual => PyDict.get qual field
    | _ => .none

def row_matches (env : Env) (supplier : PyDict) : PyDict → Except PyErr Bool
  | [] => .ok true
  | (field, expected) :: rest => do
    let actual := get_row_field supplier field
    let found ←
      if field ∈ NUMERIC_FIELDS then match_numeric_field env actual expected
      else pure (match_string_field env actual expected)
    if found then row_matches env supplier rest else pure false

def matching_row_ids (env : Env) (suppliers : Dict String PyDict) (args : RetrievalArgs)
    (filters : PyDict) : Except PyErr (List String) :=
  suppliers.entries.foldlM (fun ids e => do
    if is_str (PyDict.get e.2 "tenant_id") args.tenant_id = false then pure ids
    else if args.supplier_id ≠ "" ∧ e.1 ≠ args.supplier_id then pure ids
    else if ← row_matches env e.2 filters then pure (ids ++ [e.1])
    else pure ids) []

/-- `query_structured`. No filter at all finds nothing. -/
def query_rows (env : Env) (s : Store) (suppliers : Dict String PyDict) (args : RetrievalArgs)
    (structured_filters : PyVal) : Except PyErr (List Item) := do
  let validated ← validate_structured_filters structured_filters
  if validated = [] then pure []
  else do
    let ids ← matching_row_ids env suppliers args validated
    scan_hits s args ids

/-! ## What a filter asks -/

/-- The value reads as a number. -/
def Reads (env : Env) (x : PyVal) (n : Rat) : Prop := x.toFloat env.float_of_str = .ok n

/-- The number is in the range, bounds included. A range has a bound. -/
structure InRange (env : Env) (range : PyDict) (n : Rat) : Prop where
  bounded : range.get "min" ≠ .none ∨ range.get "max" ≠ .none
  above : range.get "min" ≠ .none → ∃ lo, Reads env (range.get "min") lo ∧ lo ≤ n
  below : range.get "max" ≠ .none → ∃ hi, Reads env (range.get "max") hi ∧ n ≤ hi

/-- The number is in the range of the filter, or the one that it names. -/
def IsAsked (env : Env) (expected : PyVal) (n : Rat) : Prop :=
  match expected with
  | .dict range => InRange env range n
  | expected => Reads env expected n

def Satisfies (env : Env) (field : String) (actual expected : PyVal) : Prop :=
  if field ∈ NUMERIC_FIELDS then ∃ n, Reads env actual n ∧ IsAsked env expected n
  else actual ≠ .none ∧ actual.toStr env.repr = expected.toStr env.repr

/-- A supplier of the tenant that satisfies all filters, and the given one if
one is given. -/
structure Matches (env : Env) (suppliers : Dict String PyDict) (args : RetrievalArgs) (filters : PyDict)
    (supplier_id : String) (supplier : PyDict) : Prop where
  stored : suppliers.get? supplier_id = some supplier
  tenant : supplier.get "tenant_id" = .str args.tenant_id
  given : args.supplier_id ≠ "" → supplier_id = args.supplier_id
  satisfies : ∀ filter ∈ filters, Satisfies env filter.1 (get_row_field supplier filter.1) filter.2

variable {env : Env} {s : Store} {suppliers : Dict String PyDict} {args : RetrievalArgs} {filters : PyDict}

/-! ## The suppliers -/

theorem number_reads {x : PyVal} {o : Option Rat} (h : number? env x = .ok o) (n : Rat) :
    o = some n ↔ Reads env x n := by
  unfold number? at h
  unfold Reads
  rcases hread : x.toFloat env.float_of_str with e | m
  · rw [hread] at h
    have hnone : o = none := by
      split at h
      · rename_i heq
        cases heq
      · split at h
        · exact (Except.ok.inj h).symm
        · cases h
      · cases h
    rw [hnone]
    simp
  · rw [hread] at h
    cases h
    simp

theorem within_iff {bound : PyVal} {holds : Rat → Bool} {b : Bool} (h : within env bound holds = .ok b) :
    b = true ↔ (bound ≠ .none → ∃ n, Reads env bound n ∧ holds n = true) := by
  unfold within at h
  split at h
  · cases h
    simp
  · rename_i hsome
    rcases hread : bound.toFloat env.float_of_str with e | n
    · rw [hread] at h
      cases h
    · rw [hread] at h
      cases h
      constructor
      · exact fun hholds _ => ⟨n, hread, hholds⟩
      · intro hbound
        obtain ⟨m, hm, hholds⟩ := hbound hsome
        cases hread.symm.trans hm
        exact hholds

/-- The end of a comparison with a range. -/
def range_asks (env : Env) (range : PyDict) (n : Rat) : Except PyErr Bool := do
  let lo := range.get "min"
  let hi := range.get "max"
  if !(← within env lo (fun lo => lo ≤ n)) then pure false
  else if !(← within env hi (fun hi => n ≤ hi)) then pure false
  else
    pure (match lo, hi with
      | .none, .none => false
      | _, _ => true)

theorem bounded_iff (lo hi : PyVal) :
    (match lo, hi with
      | .none, .none => false
      | _, _ => true) = true ↔ lo ≠ .none ∨ hi ≠ .none := by
  cases lo <;> cases hi <;> simp

theorem range_iff {range : PyDict} {n : Rat} {b : Bool} (h : range_asks env range n = .ok b) :
    b = true ↔ InRange env range n := by
  unfold range_asks at h
  dsimp only at h
  rcases hlo : within env (range.get "min") (fun lo => lo ≤ n) with e | above
  · rw [hlo] at h
    cases h
  · have habove := within_iff hlo
    rw [hlo] at h
    cases above with
    | false =>
      cases h
      refine iff_of_false Bool.false_ne_true fun hrange => ?_
      have htrue := habove.2 fun hsome => by simpa using hrange.above hsome
      cases htrue
    | true =>
      rcases hhi : within env (range.get "max") (fun hi => n ≤ hi) with e | below
      · rw [hhi] at h
        cases h
      · have hbelow := within_iff hhi
        rw [hhi] at h
        cases below with
        | false =>
          cases h
          refine iff_of_false Bool.false_ne_true fun hrange => ?_
          have htrue := hbelow.2 fun hsome => by simpa using hrange.below hsome
          cases htrue
        | true =>
          cases h
          rw [bounded_iff]
          constructor
          · intro hbounded
            exact ⟨hbounded, fun hsome => by simpa using habove.1 rfl hsome,
              fun hsome => by simpa using hbelow.1 rfl hsome⟩
          · exact fun hrange => hrange.bounded

/-- The end of a comparison with what a filter names. -/
def value_asks (env : Env) (expected : PyVal) (n : Rat) : Except PyErr Bool :=
  match expected with
  | .dict range => range_asks env range n
  | expected => do
    match ← number? env expected with
    | none => pure false
    | some m => pure (n = m)

theorem value_iff {expected : PyVal} {n : Rat} {b : Bool} (h : value_asks env expected n = .ok b) :
    b = true ↔ IsAsked env expected n := by
  unfold value_asks at h
  unfold IsAsked
  split at h
  · exact range_iff h
  · rename_i hno
    rcases hread : number? env expected with e | o
    · rw [hread] at h
      cases h
    · have hreads := number_reads hread
      rw [hread] at h
      have hasked : b = true ↔ Reads env expected n := by
        rw [← hreads n]
        cases o with
        | none =>
          cases h
          simp
        | some m =>
          cases h
          rw [decide_eq_true_eq, Option.some.injEq, eq_comm]
      exact hasked

theorem numeric_field_asks {actual : PyVal} (hsome : actual ≠ .none) (expected : PyVal) :
    match_numeric_field env actual expected = number? env actual >>= fun o =>
      match o with
      | none => pure false
      | some n => value_asks env expected n := by
  unfold match_numeric_field
  cases actual with
  | none => exact absurd rfl hsome
  | _ => rfl

theorem numeric_field_iff {actual expected : PyVal} {b : Bool}
    (h : match_numeric_field env actual expected = .ok b) :
    b = true ↔ ∃ n, Reads env actual n ∧ IsAsked env expected n := by
  by_cases hsome : actual = .none
  · subst hsome
    cases h
    refine iff_of_false Bool.false_ne_true ?_
    rintro ⟨n, hread, -⟩
    cases hread
  · rw [numeric_field_asks hsome] at h
    rcases hread : number? env actual with e | o
    · rw [hread] at h
      cases h
    · have hreads := number_reads hread
      rw [hread] at h
      cases o with
      | none =>
        cases h
        refine iff_of_false Bool.false_ne_true ?_
        rintro ⟨n, hn, -⟩
        cases (hreads n).2 hn
      | some n =>
        rw [value_iff h]
        constructor
        · exact fun hasked => ⟨n, (hreads n).1 rfl, hasked⟩
        · rintro ⟨m, hm, hasked⟩
          cases (hreads m).2 hm
          exact hasked

theorem string_field_iff (env : Env) (actual expected : PyVal) :
    match_string_field env actual expected = true ↔
      actual ≠ .none ∧ actual.toStr env.repr = expected.toStr env.repr := by
  unfold match_string_field
  cases actual <;> simp

theorem row_matches_iff {supplier : PyDict} {b : Bool} (h : row_matches env supplier filters = .ok b) :
    b = true ↔ ∀ filter ∈ filters, Satisfies env filter.1 (get_row_field supplier filter.1) filter.2 := by
  induction filters with
  | nil =>
    cases h
    simp
  | cons filter rest ih =>
    obtain ⟨field, expected⟩ := filter
    rw [List.forall_mem_cons]
    unfold row_matches at h
    unfold Satisfies
    by_cases hnumeric : field ∈ NUMERIC_FIELDS
    · rw [if_pos hnumeric] at h ⊢
      rcases hfound : match_numeric_field env (get_row_field supplier field) expected with e | found
      · dsimp only at h
        rw [hfound] at h
        cases h
      · have hiff := numeric_field_iff hfound
        dsimp only at h
        rw [hfound] at h
        cases found with
        | false =>
          cases h
          exact iff_of_false Bool.false_ne_true fun hall => Bool.false_ne_true (hiff.2 hall.1)
        | true =>
          rw [ih h]
          exact ⟨fun hrest => ⟨hiff.1 rfl, hrest⟩, fun hall => hall.2⟩
    · rw [if_neg hnumeric] at h ⊢
      have hiff := string_field_iff env (get_row_field supplier field) expected
      dsimp only at h
      cases hfound : match_string_field env (get_row_field supplier field) expected with
      | false =>
        rw [hfound] at h hiff
        cases h
        exact iff_of_false Bool.false_ne_true fun hall => Bool.false_ne_true (hiff.2 hall.1)
      | true =>
        rw [hfound] at h hiff
        rw [ih h]
        exact ⟨fun hrest => ⟨hiff.1 rfl, hrest⟩, fun hall => hall.2⟩

theorem is_str_iff {x : PyVal} {text : String} : is_str x text = true ↔ x = .str text := by
  unfold is_str
  cases x <;> simp

/-- The suppliers that are found are those that match. -/
theorem matching_row_ids_iff (env : Env) (suppliers : Dict String PyDict) (args : RetrievalArgs)
    (filters : PyDict) (supplier_id : String) :
    Gives (matching_row_ids env suppliers args filters) fun ids =>
      supplier_id ∈ ids ↔ ∃ supplier, Matches env suppliers args filters supplier_id supplier := by
  have hturn : ∀ (ids : List String), ∀ e ∈ suppliers.entries, Gives
      (if is_str (PyDict.get e.2 "tenant_id") args.tenant_id = false then pure ids
        else if args.supplier_id ≠ "" ∧ e.1 ≠ args.supplier_id then pure ids
        else row_matches env e.2 filters >>= fun found =>
          if found then pure (ids ++ [e.1]) else pure ids) fun ids' =>
      supplier_id ∈ ids' ↔ supplier_id ∈ ids ∨
        e.1 = supplier_id ∧ Matches env suppliers args filters e.1 e.2 := by
    intro ids e he
    split
    · rename_i hother
      rw [gives_pure]
      refine (or_iff_left fun hmatch => ?_).symm
      rw [is_str_iff.2 hmatch.2.tenant] at hother
      cases hother
    · rename_i htenant
      rw [Bool.not_eq_false, is_str_iff] at htenant
      split
      · rename_i hother
        rw [gives_pure]
        exact (or_iff_left fun hmatch => hother.2 (hmatch.2.given hother.1)).symm
      · rename_i hgiven
        have hgiven' : args.supplier_id ≠ "" → e.1 = args.supplier_id := by
          intro hne
          by_contra hother
          exact hgiven ⟨hne, hother⟩
        refine Gives.bind (P := fun found => found = true ↔
          ∀ filter ∈ filters, Satisfies env filter.1 (get_row_field e.2 filter.1) filter.2)
          (fun found hfound => row_matches_iff hfound) fun found hfound => ?_
        cases found with
        | false =>
          rw [if_neg Bool.false_ne_true, gives_pure]
          exact (or_iff_left fun hmatch => Bool.false_ne_true (hfound.2 hmatch.2.satisfies)).symm
        | true =>
          have hmatch : Matches env suppliers args filters e.1 e.2 :=
            ⟨(suppliers.mem_entries_iff e.1 e.2).1 he, htenant, hgiven', hfound.1 rfl⟩
          rw [if_pos rfl, gives_pure, List.mem_append, List.mem_singleton, eq_comm (a := supplier_id)]
          exact or_congr_right ⟨fun heq => ⟨heq, hmatch⟩, fun h => h.1⟩
  unfold matching_row_ids
  refine (gives_foldlM_exists hturn).mono fun ids hids => ?_
  rw [hids]
  constructor
  · rintro (hin | ⟨e, -, rfl, hmatch⟩)
    · cases hin
    · exact ⟨e.2, hmatch⟩
  · rintro ⟨supplier, hmatch⟩
    exact .inr ⟨(supplier_id, supplier), (suppliers.mem_entries_iff _ _).2 hmatch.stored, rfl, hmatch⟩

/-! ## The chunks -/

/-- The id is that of a citation source in the scope. -/
def OfSource (s : Store) (args : RetrievalArgs) (ids : List String) (key : HashKey) : Prop :=
  ∃ chunk_id source, s.citation_sources.get? chunk_id = some source ∧ source.tenant_id = args.tenant_id ∧
    source.project_id = args.project_id ∧ source.supplier_id ∈ ids ∧ key = .text chunk_id

/-- The id is that of a stored chunk in the scope. An empty id is none. -/
def OfChunk (s : Store) (args : RetrievalArgs) (ids : List String) (key : HashKey) : Prop :=
  ∃ document_id chunks document chunk, s.document_chunks.get? document_id = some chunks ∧
    s.documents.get? document_id = some document ∧ document.tenant_id = args.tenant_id ∧
    document.project_id = args.project_id ∧ document.supplier_id ∈ ids ∧ chunk ∈ chunks ∧
    (PyDict.get chunk "chunk_id").truthy = true ∧ hash_key (PyDict.get chunk "chunk_id") = .ok key

variable {ids : List String} {key : HashKey}

theorem source_hit_iff (ids : List String) (key : HashKey) (e : String × CitationSource) :
    Gives (source_hit ids args e) fun o => (∃ item, o = some item ∧ key_of item = key) ↔
      (e.2.tenant_id = args.tenant_id ∧ e.2.project_id = args.project_id ∧ e.2.supplier_id ∈ ids) ∧
        key = .text e.1 := by
  unfold source_hit
  dsimp only
  split
  · rename_i hout
    rw [gives_pure]
    refine iff_of_false ?_ fun h => ?_
    · rintro ⟨item, ⟨⟩, -⟩
    · obtain ⟨⟨htenant, hproject, hsupplier⟩, -⟩ := h
      rcases hout with hout | hout | hout
      · exact hout htenant
      · exact hout hproject
      · exact hout hsupplier
  · rename_i hin
    simp only [not_or, ne_eq, not_not] at hin
    refine gives_bind fun metadata => ?_
    rw [gives_pure]
    constructor
    · rintro ⟨item, ⟨⟩, rfl⟩
      exact ⟨hin, rfl⟩
    · rintro ⟨-, rfl⟩
      exact ⟨_, rfl, rfl⟩

theorem sources_iff (s : Store) (args : RetrievalArgs) (ids : List String) (key : HashKey) :
    Gives (s.citation_sources.entries.mapM (source_hit ids args)) fun found =>
      key ∈ (found.filterMap id).map key_of ↔ OfSource s args ids key := by
  refine (gives_mapM_exists fun e _ => source_hit_iff ids key e).mono fun found hfound => ?_
  have hkeys : key ∈ (found.filterMap id).map key_of ↔ ∃ o ∈ found, ∃ item, o = some item ∧ key_of item = key := by
    rw [List.mem_map]
    constructor
    · rintro ⟨item, hin, hkey⟩
      obtain ⟨o, ho, hsome⟩ := List.mem_filterMap.1 hin
      exact ⟨o, ho, item, hsome, hkey⟩
    · rintro ⟨o, ho, item, hsome, hkey⟩
      exact ⟨item, List.mem_filterMap.2 ⟨o, ho, hsome⟩, hkey⟩
  rw [hkeys, hfound]
  constructor
  · rintro ⟨e, he, ⟨htenant, hproject, hsupplier⟩, hkey⟩
    exact ⟨e.1, e.2, (s.citation_sources.mem_entries_iff e.1 e.2).1 he, htenant, hproject, hsupplier, hkey⟩
  · rintro ⟨chunk_id, source, hstored, htenant, hproject, hsupplier, hkey⟩
    exact ⟨(chunk_id, source), (s.citation_sources.mem_entries_iff _ _).2 hstored,
      ⟨htenant, hproject, hsupplier⟩, hkey⟩

/-- The chunk has an id, and this is its key. -/
def HasKey (key : HashKey) (chunk : PyDict) : Prop :=
  (PyDict.get chunk "chunk_id").truthy = true ∧ hash_key (PyDict.get chunk "chunk_id") = .ok key

theorem chunk_hit_iff (document : Document) (key : HashKey) (hits : Hits) (chunk : PyDict) :
    Gives (chunk_hit document args hits chunk) fun hits' => key ∈ hits'.2 ↔ key ∈ hits.2 ∨ HasKey key chunk := by
  unfold chunk_hit
  dsimp only
  split
  · rename_i hempty
    rw [gives_pure]
    refine (or_iff_left fun hkey => ?_).symm
    rw [hkey.1] at hempty
    cases hempty
  · rename_i hsome
    rw [Bool.not_eq_false] at hsome
    refine Gives.bind (P := fun k => hash_key (PyDict.get chunk "chunk_id") = .ok k) (fun k hk => hk)
      fun k hk => ?_
    have hkey : HasKey key chunk ↔ key = k := by
      constructor
      · intro h
        cases h.2.symm.trans hk
        rfl
      · rintro rfl
        exact ⟨hsome, hk⟩
    rw [hkey]
    split
    · rename_i hseen
      rw [gives_pure]
      constructor
      · exact .inl
      · rintro (hin | rfl)
        · exact hin
        · exact hseen
    · refine gives_bind fun position => ?_
      rw [gives_pure, List.mem_append, List.mem_singleton]

theorem document_hits_iff (s : Store) (ids : List String) (key : HashKey) (hits : Hits)
    (e : String × List PyDict) : Gives (document_hits s ids args hits e) fun hits' =>
      key ∈ hits'.2 ↔ key ∈ hits.2 ∨ ∃ document, s.documents.get? e.1 = some document ∧
        (document.tenant_id = args.tenant_id ∧ document.project_id = args.project_id ∧
          document.supplier_id ∈ ids) ∧ ∃ chunk ∈ e.2, HasKey key chunk := by
  unfold document_hits
  split
  · rename_i hnone
    rw [gives_pure]
    refine (or_iff_left ?_).symm
    rintro ⟨document, hsome, -⟩
    cases hnone.symm.trans hsome
  · rename_i document hdocument
    split
    · rename_i hout
      rw [gives_pure]
      refine (or_iff_left ?_).symm
      rintro ⟨other, hsome, ⟨htenant, hproject, hsupplier⟩, -⟩
      cases hdocument.symm.trans hsome
      rcases hout with hout | hout | hout
      · exact hout htenant
      · exact hout hproject
      · exact hout hsupplier
    · rename_i hin
      simp only [not_or, ne_eq, not_not] at hin
      refine (gives_foldlM_exists fun hits chunk _ => chunk_hit_iff document key hits chunk).mono
        fun hits' hhits => ?_
      rw [hhits]
      refine or_congr_right ⟨fun hchunk => ⟨document, hdocument, hin, hchunk⟩, ?_⟩
      rintro ⟨other, hsome, -, hchunk⟩
      exact hchunk

/-- The ids of the hits. -/
theorem scan_hits_iff (s : Store) (args : RetrievalArgs) (ids : List String) (key : HashKey) :
    Gives (scan_hits s args ids) fun hits =>
      key ∈ hits.map key_of ↔ OfSource s args ids key ∨ OfChunk s args ids key := by
  unfold scan_hits
  split
  · rename_i hnone
    rw [gives_pure, hnone]
    refine iff_of_false List.not_mem_nil ?_
    rintro (⟨_, _, _, _, _, hin, _⟩ | ⟨_, _, _, _, _, _, _, _, hin, _⟩)
    · cases hin
    · cases hin
  · refine Gives.bind (P := fun found =>
      ((found.filterMap id).map Item.chunk_id).Sublist (s.citation_sources.entries.map fun e => .str e.1) ∧
        (key ∈ (found.filterMap id).map key_of ↔ OfSource s args ids key))
      (fun found hfound => ⟨source_hit_ids ids args _ found hfound, sources_iff s args ids key found hfound⟩)
      fun found hfound => ?_
    have hstart := sources_distinct hfound.1
    dsimp only
    rw [keys_of hstart.hashable]
    refine Gives.bind (P := fun hits => Distinct hits ∧ (key ∈ hits.2 ↔
        OfSource s args ids key ∨ OfChunk s args ids key)) (fun hits hhits => ⟨?_, ?_⟩) fun hits hhits => ?_
    · exact gives_foldlM hstart (fun hits e _ h => document_hits_distinct s ids args h e) hits hhits
    · have hchunks := gives_foldlM_exists (fun hits e _ => document_hits_iff s ids key hits e) hits hhits
      dsimp only at hchunks
      rw [hchunks, hfound.2]
      apply or_congr_right
      constructor
      · rintro ⟨e, he, document, hdocument, ⟨htenant, hproject, hsupplier⟩, chunk, hchunk, hkey⟩
        exact ⟨e.1, e.2, document, chunk, (s.document_chunks.mem_entries_iff e.1 e.2).1 he, hdocument,
          htenant, hproject, hsupplier, hchunk, hkey.1, hkey.2⟩
      · rintro ⟨document_id, chunks, document, chunk, hchunks, hdocument, htenant, hproject, hsupplier,
          hchunk, htruthy, hkey⟩
        exact ⟨(document_id, chunks), (s.document_chunks.mem_entries_iff _ _).2 hchunks, document, hdocument,
          ⟨htenant, hproject, hsupplier⟩, chunk, hchunk, htruthy, hkey⟩
    · rw [gives_pure, ← hhits.1.seen]
      exact hhits.2

/-! ## The law -/

/-- The chunks that a structured query is about, by the key of their id. -/
def Wanted (env : Env) (s : Store) (suppliers : Dict String PyDict) (args : RetrievalArgs)
    (filters : PyDict) (key : HashKey) : Prop :=
  (∃ chunk_id source supplier, s.citation_sources.get? chunk_id = some source ∧
    source.tenant_id = args.tenant_id ∧ source.project_id = args.project_id ∧
    Matches env suppliers args filters source.supplier_id supplier ∧ key = .text chunk_id) ∨
  (∃ document_id chunks document chunk supplier, s.document_chunks.get? document_id = some chunks ∧
    s.documents.get? document_id = some document ∧ document.tenant_id = args.tenant_id ∧
    document.project_id = args.project_id ∧
    Matches env suppliers args filters document.supplier_id supplier ∧ chunk ∈ chunks ∧ HasKey key chunk)

theorem wanted_iff {key : HashKey} (hids : ∀ supplier_id,
      supplier_id ∈ ids ↔ ∃ supplier, Matches env suppliers args filters supplier_id supplier) :
    OfSource s args ids key ∨ OfChunk s args ids key ↔ Wanted env s suppliers args filters key := by
  apply or_congr
  · constructor
    · rintro ⟨chunk_id, source, hstored, htenant, hproject, hin, hkey⟩
      obtain ⟨supplier, hmatch⟩ := (hids _).1 hin
      exact ⟨chunk_id, source, supplier, hstored, htenant, hproject, hmatch, hkey⟩
    · rintro ⟨chunk_id, source, supplier, hstored, htenant, hproject, hmatch, hkey⟩
      exact ⟨chunk_id, source, hstored, htenant, hproject, (hids _).2 ⟨supplier, hmatch⟩, hkey⟩
  · constructor
    · rintro ⟨document_id, chunks, document, chunk, hchunks, hdocument, htenant, hproject, hin, hchunk, hkey⟩
      obtain ⟨supplier, hmatch⟩ := (hids _).1 hin
      exact ⟨document_id, chunks, document, chunk, supplier, hchunks, hdocument, htenant, hproject, hmatch,
        hchunk, hkey⟩
    · rintro ⟨document_id, chunks, document, chunk, supplier, hchunks, hdocument, htenant, hproject, hmatch,
        hchunk, hkey⟩
      exact ⟨document_id, chunks, document, chunk, hchunks, hdocument, htenant, hproject,
        (hids _).2 ⟨supplier, hmatch⟩, hchunk, hkey⟩

/-- The row that the administration stores for a supplier. -/
def supplier_row (supplier : Supplier) : PyDict :=
  [("supplier_id", .str supplier.supplier_id), ("tenant_id", .str supplier.tenant_id),
    ("supplier_code", .str supplier.supplier_code), ("name", .str supplier.name),
    ("qualification", supplier.qualification), ("risk_flags", supplier.risk_flags),
    ("status", .str supplier.status), ("created_at", .int supplier.created_at),
    ("updated_at", .int supplier.updated_at)]

theorem supplier_row_field (supplier : Supplier) {field : String} (h : field ∈ WHITELIST_FIELDS) :
    get_row_field (supplier_row supplier) field = get_supplier_field supplier field := by
  have hqualification : ∀ f, (match (supplier.qualification).or (.dict []) with
      | .dict qual => PyDict.get qual f
      | _ => PyVal.none) = match supplier.qualification with
      | .dict qual => PyDict.get qual f
      | _ => .none := by
    intro f
    unfold PyVal.or
    by_cases htruthy : supplier.qualification.truthy = true
    · rw [if_pos htruthy]
    · rw [if_neg htruthy]
      cases hqual : supplier.qualification with
      | dict qual =>
        rw [hqual] at htruthy
        cases qual with
        | nil => rfl
        | cons e rest => exact absurd rfl htruthy
      | _ => rfl
  unfold WHITELIST_FIELDS at h
  simp only [List.mem_cons, List.not_mem_nil, or_false] at h
  rcases h with rfl | rfl | rfl | rfl | rfl | rfl
  · rfl
  all_goals exact hqualification _

theorem supplier_row_matches (env : Env) (supplier : Supplier) {filters : PyDict}
    (h : ∀ filter ∈ filters, filter.1 ∈ WHITELIST_FIELDS) :
    row_matches env (supplier_row supplier) filters = supplier_matches env supplier filters := by
  induction filters with
  | nil => rfl
  | cons filter rest ih =>
    rw [List.forall_mem_cons] at h
    unfold row_matches supplier_matches
    rw [ih h.2, supplier_row_field supplier h.1]

/-- Over the rows of suppliers, this is the query that a retrieval makes. -/
theorem query_rows_of_suppliers (env : Env) (s : Store) (args : RetrievalArgs) {rows : Dict String PyDict}
    {suppliers : List Supplier} {structured_filters : PyVal} {validated : PyDict}
    (hrows : rows.entries = suppliers.map fun supplier => (supplier.supplier_id, supplier_row supplier))
    (hvalid : validate_structured_filters structured_filters = .ok validated) (hsome : validated ≠ []) :
    query_rows env s rows args structured_filters = query_structured env s suppliers args validated := by
  have hfields : ∀ filter ∈ validated, filter.1 ∈ WHITELIST_FIELDS := by
    unfold validate_structured_filters at hvalid
    split at hvalid
    · split at hvalid
      · rename_i hnone
        cases hvalid
        intro filter hin
        by_contra hout
        have hleft := (List.filter_eq_nil_iff.1 hnone) filter hin
        exact hleft (decide_eq_true hout)
      · cases hvalid
    · cases hvalid
  have hids : matching_row_ids env rows args validated =
      matching_supplier_ids env suppliers args validated := by
    unfold matching_row_ids matching_supplier_ids
    rw [hrows, List.foldlM_map]
    congr 1
    funext ids supplier
    have htenant : PyDict.get (supplier_row supplier) "tenant_id" = .str supplier.tenant_id := rfl
    dsimp only
    rw [htenant, supplier_row_matches env supplier hfields]
    simp only [is_str, decide_eq_false_iff_not]
  unfold query_rows
  rw [hvalid]
  change (if validated = [] then _ else _) = _
  rw [if_neg hsome, hids]
  rfl

/-! ## A supplier with a source and a chunk -/

def acme_rows : Dict String PyDict :=
  Dict.empty.set "sup_1" [("supplier_id", .str "sup_1"), ("tenant_id", .str "acme"),
    ("qualification", .dict [("registered_capital", .int 5)])]

def bid_document : Document :=
  ⟨"doc_1", "acme", "prj_1", "sup_1", "bid", "bid.pdf", "sha", 1, "indexed", none⟩

/-- One source, and a document with a chunk of an id and one of none. -/
def acme_store : Store :=
  { tender_world.store with
    documents := tender_world.store.documents.put bid_document
    document_chunks := tender_world.store.document_chunks.set "doc_1"
      [[("chunk_id", .str "ck_bid")], [("chunk_id", .str "")]] }

def capital_filter : PyDict := [("registered_capital", .dict [("min", .int 5)])]

def hit_of (chunk_id doc_type : String) : Item :=
  structured_hit (.str chunk_id)
    ⟨.str "acme", .str "prj_1", .str "sup_1", .str "doc_1", .str doc_type, 1, default_bbox⟩

end bid_evaluation.structured_hits
