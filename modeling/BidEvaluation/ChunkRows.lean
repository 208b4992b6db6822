-- The chunks of `PostgresBackedStore`: the memory of `InMemoryStore` with the
-- tables of `PostgresDocumentsRepository` behind it, and what a reader of the
-- tables misses of the memory.
import BidEvaluation.Lib.Zoom
import BidEvaluation.NormalLaws

open dict_lib stepwise zoom first_of_key bid_evaluation.values bid_evaluation.core
  bid_evaluation.store_admin bid_evaluation.store_parse bid_evaluation.parse_laws
  bid_evaluation.normal_laws
open bid_evaluation.endings
open bid_evaluation.operations (calm_env)

namespace bid_evaluation.chunk_rows

/-! ## The tables -/

/-- A row of `document_chunks`. -/
structure ChunkRow where
  chunk_id : String
  tenant_id : String
  document_id : String
  chunk_hash : PyVal
  pages : PyVal
  positions : PyVal
  sect : PyVal
  heading_path : PyVal
  chunk_type : PyVal
  parser : PyVal
  parser_version : PyVal
  text : PyVal

/-- The store: its memory, and the rows of both tables. -/
structure PostgresStore where
  memory : World
  documents : Table Document.document_id
  document_chunks : List ChunkRow

abbrev StoreAct := Prog PostgresStore PyErr

/-- The part of a call that `super()` does. -/
def on_memory (m : Act α) : StoreAct α :=
  zoomed PostgresStore.memory (fun p w => { p with memory := w }) m

/-! ## Writes -/

/-- A value for a column of type `TEXT`. -/
def text_column (value : PyVal) : Except PyErr PyVal :=
  match value with
  | .none => .ok .none
  | .str s => .ok (.str s)
  | _ => .error (.raised "DatatypeMismatch" "column is of type text")

/-- A value for the primary key. -/
def key_column (value : PyVal) : Except PyErr String :=
  match value with
  | .str s => .ok s
  | .none => .error (.raised "NotNullViolation" "null value in column \"chunk_id\"")
  | _ => .error (.raised "DatatypeMismatch" "column is of type text")

/-- The columns of an `INSERT`. -/
def chunk_row (tenant_id document_id : String) (chunk : PyDict) : Except PyErr ChunkRow := do
  let chunk_id ← key_column (chunk.get "chunk_id")
  let chunk_hash ← text_column (chunk.getD "chunk_hash" (.str ""))
  let sect ← text_column (chunk.getD "section" (.str ""))
  let chunk_type ← text_column (chunk.getD "chunk_type" (.str "text"))
  let parser ← text_column (chunk.getD "parser" (.str "mineru"))
  let parser_version ← text_column (chunk.getD "parser_version" (.str "v0"))
  let text ← text_column (chunk.getD "text" (.str ""))
  pure {
    chunk_id := chunk_id
    tenant_id := tenant_id
    document_id := document_id
    chunk_hash := chunk_hash
    pages := chunk.getD "pages" (.list [])
    positions := chunk.getD "positions" (.list [])
    sect := sect
    heading_path := chunk.getD "heading_path" (.list [])
    chunk_type := chunk_type
    parser := parser
    parser_version := parser_version
    text := text }

def insert_chunk (tenant_id document_id : String) (rows : List ChunkRow) (chunk : PyDict) :
    Except PyErr (List ChunkRow) := do
  let row ← chunk_row tenant_id document_id chunk
  if rows.any (fun r => r.chunk_id = row.chunk_id) then
    .error (.raised "UniqueViolation" "duplicate key value violates unique constraint")
  else pure (rows ++ [row])

/-- The transaction of `replace_chunks`: the rows after it, if it commits. -/
def replace_rows (rows : List ChunkRow) (tenant_id document_id : String) (chunks : List PyDict) :
    Except PyErr (List ChunkRow) :=
  chunks.foldlM (insert_chunk tenant_id document_id)
    (rows.filter (fun r => ¬(r.tenant_id = tenant_id ∧ r.document_id = document_id)))

/-- `_persist_document_chunks`. -/
def persist_chunk_rows (env : Env) (tenant_id document_id : String) (chunks : List PyDict) :
    StoreAct (List PyDict) := do
  let saved ← on_memory (persist_document_chunks env tenant_id document_id chunks)
  let p ← read
  let rows ← lift (replace_rows p.document_chunks tenant_id document_id saved)
  write (fun p => { p with document_chunks := rows })
  pure saved

/-! ## Reads -/

/-- The page and the box of the first position, unless the chunk has them. -/
def with_first_position (chunk : PyDict) : Except PyErr PyDict :=
  match chunk.get "positions" with
  | .list (.dict first :: _) => do
    let page ← ((PyDict.get first "page").or (.int 1)).toInt
    let item := chunk.setdefault "page" (.int page)
    match PyDict.get first "bbox" with
    | .list bbox => pure (if bbox.length = 4 then item.setdefault "bbox" (.list bbox) else item)
    | _ => pure item
  | _ => pure chunk

/-- `_with_page_bbox`. -/
def with_page_bbox (chunk : PyDict) : Except PyErr PyDict := do
  let item ← with_first_position chunk
  let page ← ((item.get "page").or (.int 1)).toInt
  pure ((item.setdefault "page" (.int page)).setdefault "bbox"
    (.list [.int 0, .int 0, .int 1, .int 1]))

/-- `x if isinstance(x, list) else []`. -/
def list_column (value : PyVal) : PyVal :=
  match value with
  | .list xs => .list xs
  | _ => .list []

def item_of_row (row : ChunkRow) : PyDict :=
  [("chunk_id", .str row.chunk_id),
    ("document_id", .str row.document_id),
    ("chunk_hash", row.chunk_hash),
    ("pages", list_column row.pages),
    ("positions", list_column row.positions),
    ("section", row.sect),
    ("heading_path", list_column row.heading_path),
    ("chunk_type", row.chunk_type),
    ("parser", row.parser),
    ("parser_version", row.parser_version),
    ("text", row.text)]

/-- `list_chunks`. The order of the ids is that of the database. -/
def list_rows (collate : String → String → Bool) (rows : List ChunkRow) (tenant_id document_id : String) :
    Except PyErr (List PyDict) :=
  ((rows.filter (fun r => r.tenant_id = tenant_id ∧ r.document_id = document_id)).mergeSort
    (fun a b => collate a.chunk_id b.chunk_id)).mapM fun row => with_page_bbox (item_of_row row)

/-- `get_document_for_tenant`. A row that is found goes to the memory. -/
def get_document_row (document_id tenant_id : String) : StoreAct (Option Document) := do
  let p ← read
  match (p.documents.get? document_id).filter (fun d => d.tenant_id = tenant_id) with
  | some loaded => do
    on_memory (update (fun s => { s with documents := s.documents.put loaded }))
    pure (some loaded)
  | none => on_memory (get_document_for_tenant document_id tenant_id)

/-- `list_document_chunks_for_tenant`. Without a row it is that of
`InMemoryStore`, with the document of the tables. -/
def list_chunk_rows (collate : String → String → Bool) (document_id tenant_id : String) :
    StoreAct (List PyDict) := do
  let p ← read
  let loaded ← lift (list_rows collate p.document_chunks tenant_id document_id)
  match loaded with
  | _ :: _ => do
    on_memory (update (fun s => { s with document_chunks := s.document_chunks.set document_id loaded }))
    pure loaded
  | [] => do
    let document ← get_document_row document_id tenant_id
    match document with
    | none => raise (.api ⟨"DOC_NOT_FOUND", "document not found", "validation", false, 404⟩)
    | some _ => do
      let p ← read
      pure ((p.memory.store.document_chunks.get? document_id).getD [])

/-! ## What a read of the memory has -/

variable {env : Env} {tenant_id document_id : String} {chunks saved items : List PyDict}
  {rows rows' : List ChunkRow} {row : ChunkRow} {chunk item : PyDict} {collate : String → String → Bool}
  {p q : PostgresStore}

/-- Chunks were saved if there were any: the first one is. -/
theorem saved_nil (h : dedupe_chunks env document_id [] chunks = .ok saved) : saved = [] ↔ chunks = [] := by
  rw [dedupe_keeps_first] at h
  cases chunks with
  | nil =>
    cases h
    exact iff_of_true rfl rfl
  | cons chunk rest =>
    rw [List.mapM_cons] at h
    rcases hitem : ensure_chunk_shape env document_id chunk with e | item
    · rw [hitem] at h
      cases h
    · rw [hitem] at h
      rcases hitems : rest.mapM (ensure_chunk_shape env document_id) with e | items
      · rw [hitems] at h
        cases h
      · rw [hitems] at h
        cases h
        exact iff_of_false (List.cons_ne_nil _ _) (List.cons_ne_nil _ _)

/-- A saved chunk says where its content comes from. -/
theorem saved_source (h : dedupe_chunks env document_id [] chunks = .ok saved) :
    ∀ item ∈ saved, (lookupEntry item "content_source").isSome = true := by
  rw [dedupe_keeps_first] at h
  rcases hitems : chunks.mapM (ensure_chunk_shape env document_id) with e | items
  · rw [hitems] at h
    cases h
  · rw [hitems] at h
    cases h
    intro item hin
    have hsource : Gives (chunks.mapM (ensure_chunk_shape env document_id)) fun l =>
        ∀ item ∈ l, (lookupEntry item "content_source").isSome = true := by
      apply gives_mapM
      intro chunk _ item hitem
      rcases hread : extract_page_and_bbox env chunk with e | ⟨page, bbox⟩
      · unfold ensure_chunk_shape at hitem
        rw [hread] at hitem
        cases hitem
      · exact (ensure_shapes hitem hread).defaults "content_source" (by decide)
    exact hsource items hitems item (keepFirst_sublist.subset hin)

/-- A save that returns has put its chunks into the memory, where their
document belongs to the tenant. -/
theorem stored_chunks {w : World} {document : Document}
    (hown : OwnDocument w document_id tenant_id document) :
    Meets AnyStep (persist_document_chunks env tenant_id document_id chunks) w fun r w' =>
      Gives r fun saved => dedupe_chunks env document_id [] chunks = .ok saved ∧
        OwnDocument w' document_id tenant_id document ∧ chunksOf w' document_id = saved := by
  unfold persist_document_chunks replace_chunks
  rw [meets_bind, meets_lift]
  rcases hsaved : dedupe_chunks env document_id [] chunks with e | saved
  · exact gives_error
  · simp only [then_ok, meets_bind, meets_read, hown.found]
    rw [if_neg (not_not.2 hown.scope)]
    simp only [meets_bind, update, meets_write, then_ok, meets_pure, any_step, true_and]
    refine gives_ok.2 ⟨rfl, ⟨hown.found, hown.scope⟩, ?_⟩
    unfold chunksOf
    rw [Dict.get?_set_self]
    rfl

/-! ## What a read of the tables has -/

/-- The rows of a document. -/
def RowOf (tenant_id document_id : String) (row : ChunkRow) : Prop :=
  row.tenant_id = tenant_id ∧ row.document_id = document_id

theorem chunk_row_of (h : chunk_row tenant_id document_id chunk = .ok row) :
    RowOf tenant_id document_id row := by
  have hrow : Gives (chunk_row tenant_id document_id chunk) (RowOf tenant_id document_id) := by
    unfold chunk_row
    repeat refine gives_bind fun _ => ?_
    exact gives_pure.2 ⟨rfl, rfl⟩
  exact hrow row h

/-- The rows that were there stay, and each chunk adds one. -/
theorem inserted_rows (chunks : List PyDict) (rows : List ChunkRow) :
    Gives (chunks.foldlM (insert_chunk tenant_id document_id) rows) fun rows' =>
      ∃ added, rows' = rows ++ added ∧ added.length = chunks.length ∧
        ∀ row ∈ added, RowOf tenant_id document_id row := by
  induction chunks generalizing rows with
  | nil =>
    rw [List.foldlM_nil]
    exact gives_pure.2 ⟨[], (List.append_nil _).symm, rfl, by simp⟩
  | cons chunk rest ih =>
    rw [List.foldlM_cons]
    have hturn : Gives (insert_chunk tenant_id document_id rows chunk) fun rows' =>
        ∃ row, rows' = rows ++ [row] ∧ RowOf tenant_id document_id row := by
      unfold insert_chunk
      refine Gives.bind (P := RowOf tenant_id document_id) (fun row h => chunk_row_of h) ?_
      intro row hrow
      split
      · exact gives_error
      · exact gives_pure.2 ⟨row, rfl, hrow⟩
    refine hturn.bind fun rows₁ h₁ => ?_
    obtain ⟨row, rfl, hrow⟩ := h₁
    refine (ih _).mono fun rows' h' => ?_
    obtain ⟨added, rfl, hlength, hadded⟩ := h'
    refine ⟨row :: added, ?_, ?_, ?_⟩
    · rw [List.append_assoc]
      rfl
    · rw [List.length_cons, List.length_cons, hlength]
    · exact List.forall_mem_cons.2 ⟨hrow, hadded⟩

/-- The rows of a document after its transaction: one for each chunk. -/
theorem replaced_rows (rows : List ChunkRow) (chunks : List PyDict) :
    Gives (replace_rows rows tenant_id document_id chunks) fun rows' =>
      (rows'.filter fun r => r.tenant_id = tenant_id ∧ r.document_id = document_id).length =
        chunks.length := by
  unfold replace_rows
  refine (inserted_rows chunks _).mono fun rows' h => ?_
  obtain ⟨added, rfl, hlength, hadded⟩ := h
  have hothers : (rows.filter fun r => ¬(r.tenant_id = tenant_id ∧ r.document_id = document_id)).filter
      (fun r => r.tenant_id = tenant_id ∧ r.document_id = document_id) = [] := by
    rw [List.filter_eq_nil_iff]
    intro row hin
    have hother := of_decide_eq_true (List.mem_filter.1 hin).2
    exact fun h => hother (of_decide_eq_true h)
  have hown : added.filter (fun r => r.tenant_id = tenant_id ∧ r.document_id = document_id) = added := by
    apply List.filter_eq_self.2
    intro row hin
    exact decide_eq_true (hadded row hin)
  rw [List.filter_append, hothers, hown, List.nil_append, hlength]

theorem with_page_bbox_other (chunk : PyDict) {key : String} (hpage : key ≠ "page") (hbbox : key ≠ "bbox") :
    Gives (with_page_bbox chunk) fun item => lookupEntry item key = lookupEntry chunk key := by
  unfold with_page_bbox
  refine Gives.bind (P := fun item => lookupEntry item key = lookupEntry chunk key) ?_ ?_
  · unfold with_first_position
    split
    · refine gives_bind fun page => ?_
      dsimp only
      split
      · split <;> simp [lookup_setdefault_of_ne, hpage, hbbox]
      · simp [lookup_setdefault_of_ne, hpage]
    · exact gives_pure.2 rfl
  · intro item hitem
    refine gives_bind fun page => gives_pure.2 ?_
    rw [lookup_setdefault_of_ne _ _ hbbox, lookup_setdefault_of_ne _ _ hpage, hitem]

/-- There is no column for what a chunk says of its source, or of its image. -/
theorem no_column (row : ChunkRow) {key : String} (h : key ∈ ["content_source", "img_path", "image_caption"]) :
    Gives (with_page_bbox (item_of_row row)) fun item => lookupEntry item key = none := by
  have hrow : lookupEntry (item_of_row row) key = none := by
    simp only [List.mem_cons, List.not_mem_nil, or_false] at h
    rcases h with rfl | rfl | rfl <;> rfl
  have hne : key ≠ "page" ∧ key ≠ "bbox" := by
    simp only [List.mem_cons, List.not_mem_nil, or_false] at h
    rcases h with rfl | rfl | rfl <;> decide
  exact (with_page_bbox_other _ hne.1 hne.2).mono fun item hitem => hitem.trans hrow

/-- What the read gives has a chunk for each row, and none says where its
content comes from. -/
theorem listed_rows (rows : List ChunkRow) : Gives (list_rows collate rows tenant_id document_id) fun items =>
    items.length = (rows.filter fun r => r.tenant_id = tenant_id ∧ r.document_id = document_id).length ∧
      ∀ item ∈ items, lookupEntry item "content_source" = none := by
  unfold list_rows
  intro items hitems
  refine ⟨(gives_mapM_length items hitems).trans (List.length_mergeSort _), ?_⟩
  exact gives_mapM (fun row _ => no_column row (by decide)) items hitems

/-! ## The two reads -/

theorem meets_on_memory {m : Act α} {Q : Except PyErr α → PostgresStore → Prop} :
    Meets AnyStep (on_memory m) p Q ↔ Q (m.result p.memory) { p with memory := m.final p.memory } :=
  meets_zoomed rfl

theorem meets_update_memory {f : Store → Store} {Q : Except PyErr Unit → PostgresStore → Prop} :
    Meets AnyStep (on_memory (update f)) p Q ↔
      Q (.ok ()) { p with memory := { p.memory with store := f p.memory.store } } := meets_on_memory

theorem get_own_document {w : World} {document : Document} (hown : OwnDocument w document_id tenant_id document) :
    Meets AnyStep (get_document_for_tenant document_id tenant_id) w fun r w' =>
      r = .ok (some document) ∧ w' = w := by
  unfold get_document_for_tenant assert_tenant_scope
  simp only [meets_bind, meets_read, then_ok, hown.found, hown.scope, ne_eq, not_true, if_false, meets_pure]
  exact ⟨trivial, trivial⟩

/-- A save that returns has written the memory as `super()` does, and the rows
of its chunks. -/
theorem persist_chunk_rows.spec (tenant_id document_id : String) (chunks : List PyDict) (p : PostgresStore) :
    Meets AnyStep (persist_chunk_rows env tenant_id document_id chunks) p fun r q => Gives r fun saved =>
      (persist_document_chunks env tenant_id document_id chunks).result p.memory = .ok saved ∧
        q.memory = (persist_document_chunks env tenant_id document_id chunks).final p.memory ∧
        replace_rows p.document_chunks tenant_id document_id saved = .ok q.document_chunks := by
  unfold persist_chunk_rows
  rw [meets_bind]
  refine (meets_zoomed rfl).2 ?_
  rcases hsaved : (persist_document_chunks env tenant_id document_id chunks).result p.memory with e | saved
  · exact gives_error
  · simp only [then_ok, meets_bind, meets_read, meets_lift]
    rcases hrows : replace_rows p.document_chunks tenant_id document_id saved with e | rows
    · exact gives_error
    · simp only [then_ok, meets_bind, meets_write, meets_pure, gives_ok, any_step, true_and, hrows]

/-- Rows that there are are what a read gives. -/
theorem list_chunk_rows.spec (p : PostgresStore) :
    Meets AnyStep (list_chunk_rows collate document_id tenant_id) p fun r _ => Gives r fun items =>
      ∃ loaded, list_rows collate p.document_chunks tenant_id document_id = .ok loaded ∧
        (loaded ≠ [] → items = loaded) := by
  unfold list_chunk_rows
  simp only [meets_bind, meets_read, then_ok, meets_lift]
  rcases hloaded : list_rows collate p.document_chunks tenant_id document_id with e | loaded
  · exact gives_error
  · rw [then_ok]
    rcases loaded with _ | ⟨item, rest⟩
    · exact ⟨steps_true _ _, fun items _ => ⟨[], rfl, fun h => absurd rfl h⟩⟩
    · simp only [meets_bind, meets_update_memory, then_ok, meets_pure]
      exact gives_ok.2 ⟨item :: rest, rfl, fun _ => rfl⟩

/-- Without a row the read gives what the memory has, for a document of the
tenant. -/
theorem list_chunk_rows_none {document : Document}
    (hitems : list_rows collate p.document_chunks tenant_id document_id = .ok [])
    (hown : OwnDocument p.memory document_id tenant_id document) :
    (list_chunk_rows collate document_id tenant_id).result p = .ok (chunksOf p.memory document_id) := by
  have hdocument : Meets AnyStep (get_document_row document_id tenant_id) p fun r q =>
      (∃ found, r = .ok (some found)) ∧ chunksOf q.memory document_id = chunksOf p.memory document_id := by
    unfold get_document_row
    rw [meets_bind, meets_read, then_ok]
    split
    · rename_i loaded _
      simp only [meets_bind, meets_update_memory, then_ok, meets_pure]
      exact ⟨⟨loaded, rfl⟩, rfl⟩
    · rw [meets_on_memory]
      obtain ⟨-, hresult, hfinal⟩ := get_own_document hown
      exact ⟨⟨document, hresult⟩, congrArg (chunksOf · document_id) hfinal⟩
  have hread : Meets AnyStep (list_chunk_rows collate document_id tenant_id) p fun r _ =>
      r = .ok (chunksOf p.memory document_id) := by
    unfold list_chunk_rows
    rw [meets_bind, meets_read, then_ok, meets_bind, meets_lift, hitems, then_ok]
    refine hdocument.bind (fun found q hq => ?_) (fun e q hq => ?_)
    · obtain ⟨⟨document, hfound⟩, hchunks⟩ := hq
      cases hfound
      rw [meets_bind, meets_read, then_ok, meets_pure]
      exact congrArg Except.ok hchunks
    · obtain ⟨⟨document, hfound⟩, -⟩ := hq
      cases hfound
  exact hread.2

/-- What is compared of a chunk. -/
def compared : List String := ["page", "bbox", "text", "content_source", "img_path", "image_caption"]

/-- The same chunks, in the same order. -/
def SameChunks : List PyDict → List PyDict → Prop :=
  List.Forall₂ fun a b => ∀ key ∈ compared, lookupEntry a key = lookupEntry b key

/-- After the same save both stores give the same chunks. -/
def ReadsAgree (env : Env) (collate : String → String → Bool) (p : PostgresStore)
    (tenant_id document_id : String) (chunks : List PyDict) : Prop :=
  ∃ stored items,
    (list_document_chunks_for_tenant document_id tenant_id).result
      ((persist_document_chunks env tenant_id document_id chunks).final p.memory) = .ok stored ∧
    (list_chunk_rows collate document_id tenant_id).result
      ((persist_chunk_rows env tenant_id document_id chunks).final p) = .ok items ∧
    SameChunks stored items

/-- What both stores have of the chunks of a document after a save. -/
structure Persisted (env : Env) (p : PostgresStore) (tenant_id document_id : String)
    (chunks saved : List PyDict) : Prop where
  deduped : dedupe_chunks env document_id [] chunks = .ok saved
  in_memory : (list_document_chunks_for_tenant document_id tenant_id).result
    ((persist_document_chunks env tenant_id document_id chunks).final p.memory) = .ok saved
  own : ∃ document, OwnDocument ((persist_chunk_rows env tenant_id document_id chunks).final p).memory
    document_id tenant_id document
  stored : chunksOf ((persist_chunk_rows env tenant_id document_id chunks).final p).memory document_id = saved
  rows : (((persist_chunk_rows env tenant_id document_id chunks).final p).document_chunks.filter
    fun r => r.tenant_id = tenant_id ∧ r.document_id = document_id).length = saved.length

theorem persisted (hown : ∃ document, OwnDocument p.memory document_id tenant_id document)
    (hsaved : (persist_chunk_rows env tenant_id document_id chunks).result p = .ok saved) :
    Persisted env p tenant_id document_id chunks saved := by
  obtain ⟨document, hown⟩ := hown
  obtain ⟨hstored, hmemory, hrows⟩ := (persist_chunk_rows.spec tenant_id document_id chunks p).2 saved hsaved
  obtain ⟨hdeduped, hown', hchunks⟩ := (stored_chunks hown).2 saved hstored
  constructor
  case deduped => exact hdeduped
  case in_memory =>
    have hid : document.document_id = document_id := Table.key_of_get? _ hown'.found
    subst hid
    rw [(list_chunks.spec hown').2.1, hchunks]
  case own =>
    rw [hmemory]
    exact ⟨document, hown'⟩
  case stored =>
    rw [hmemory]
    exact hchunks
  case rows => exact replaced_rows p.document_chunks saved _ hrows

/-- A row does not say where its content comes from, and a chunk in the memory
always does. -/
theorem Persisted.nothing (h : Persisted env p tenant_id document_id chunks saved)
    (hagree : ReadsAgree env collate p tenant_id document_id chunks) : saved = [] := by
  obtain ⟨stored, items, hstored, hitems, hsame⟩ := hagree
  cases h.in_memory.symm.trans hstored
  obtain ⟨loaded, hloaded, heq⟩ := (list_chunk_rows.spec _).2 items hitems
  obtain ⟨hlength, hlack⟩ := listed_rows _ loaded hloaded
  rw [h.rows] at hlength
  cases hsame with
  | nil => rfl
  | @cons chunk item rest items hkeys hrest =>
    have hsome : loaded ≠ [] := List.ne_nil_of_length_pos (by simp [hlength])
    have hnone : lookupEntry item "content_source" = none := by
      apply hlack
      rw [← heq hsome]
      exact List.mem_cons_self
    have hsource := saved_source h.deduped chunk List.mem_cons_self
    rw [hkeys "content_source" (by decide), hnone] at hsource
    cases hsource

/-- Without a chunk both reads are empty. -/
theorem Persisted.agree (h : Persisted env p tenant_id document_id chunks []) :
    ReadsAgree env collate p tenant_id document_id chunks := by
  obtain ⟨document, hown⟩ := h.own
  refine ⟨[], [], h.in_memory, ?_, List.Forall₂.nil⟩
  rw [list_chunk_rows_none ?_ hown, h.stored]
  unfold list_rows
  rw [List.length_eq_zero_iff.1 h.rows, List.mergeSort_nil]
  rfl

/-- The chunks of a document of the tenant, saved without a raise, read the
same from both stores only if there are none. -/
theorem reads_agree_iff (env : Env) (collate : String → String → Bool) (p : PostgresStore)
    (tenant_id document_id : String) (chunks : List PyDict)
    (hown : ∃ document, OwnDocument p.memory document_id tenant_id document)
    (hsaved : ∃ saved, (persist_chunk_rows env tenant_id document_id chunks).result p = .ok saved) :
    ReadsAgree env collate p tenant_id document_id chunks ↔ chunks = [] := by
  obtain ⟨saved, hsaved⟩ := hsaved
  have h := persisted hown hsaved
  rw [← saved_nil h.deduped]
  constructor
  · exact h.nothing
  · rintro rfl
    exact h.agree

/-! ## A bid of one chunk -/

/-- The store after an upload. -/
def uploaded_store : PostgresStore where
  memory := uploaded calm_env
  documents := (uploaded calm_env).store.documents
  document_chunks := []

def price_chunk : PyDict :=
  [("page", .int 2), ("text", .str "Bid"), ("content_source", .str "mineru")]

theorem upload_is_own : ∃ document, OwnDocument uploaded_store.memory "doc_" "tenant" document := by
  have hdocument : (uploaded_store.memory.store.documents.get? "doc_").map (fun d => d.tenant_id) =
      some "tenant" := by decide +kernel
  obtain ⟨document, hfound, hscope⟩ := Option.map_eq_some_iff.1 hdocument
  exact ⟨document, hfound, hscope⟩

theorem saves {chunks : List PyDict}
    (h : ((persist_chunk_rows calm_env "tenant" "doc_" chunks).result uploaded_store).isOk = true) :
    ∃ saved, (persist_chunk_rows calm_env "tenant" "doc_" chunks).result uploaded_store = .ok saved := by
  rcases hr : (persist_chunk_rows calm_env "tenant" "doc_" chunks).result uploaded_store with e | saved
  · rw [hr] at h
    cases h
  · exact ⟨saved, rfl⟩

/-- Nothing is saved, and both reads are empty. -/
theorem no_chunk_agrees : ReadsAgree calm_env (fun a b => a ≤ b) uploaded_store "tenant" "doc_" [] :=
  (reads_agree_iff _ _ _ _ _ _ upload_is_own (saves (by decide +kernel))).2 rfl

/-- One chunk is saved, and its source is lost. -/
theorem chunk_loses_source :
    (∃ saved, (persist_chunk_rows calm_env "tenant" "doc_" [price_chunk]).result uploaded_store =
      .ok saved) ∧
    ¬ReadsAgree calm_env (fun a b => a ≤ b) uploaded_store "tenant" "doc_" [price_chunk] := by
  obtain ⟨saved, hsaved⟩ : ∃ saved, (persist_chunk_rows calm_env "tenant" "doc_" [price_chunk]).result
      uploaded_store = .ok saved := saves (by decide +kernel)
  have h := persisted upload_is_own hsaved
  refine ⟨⟨saved, hsaved⟩, fun hagree => ?_⟩
  exact List.cons_ne_nil _ _ ((saved_nil h.deduped).1 (h.nothing hagree))

end bid_evaluation.chunk_rows
