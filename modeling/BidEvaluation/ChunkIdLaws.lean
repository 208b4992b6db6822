-- The laws of the chunk ids. The service hashes the page, the box and the text
-- of an item into its id; the store drops a chunk only when the heading is the
-- same, too.
import BidEvaluation.MineruFiles
import BidEvaluation.NormalLaws

open dict_lib stepwise first_of_key bid_evaluation.values bid_evaluation.core
  bid_evaluation.store_parse bid_evaluation.parse_laws bid_evaluation.parser_adapters
  bid_evaluation.mineru_chunks bid_evaluation.mineru_files bid_evaluation.operations
open bid_evaluation.normal_laws (float_bbox_floats set_unless_truthy_same id_truthy text_or_empty)

namespace bid_evaluation.chunk_id_laws

variable {env : Env} {sha256 : String → String} {result : ResultOf} {item : RawContentItem}
  {items : List RawContentItem}

/-! ## What an item is told apart by -/

/-- The items that make a chunk. -/
def shown (items : List RawContentItem) : List RawContentItem :=
  items.filter fun item => !is_skipped_item item

def shown_text (item : RawContentItem) : String :=
  match text_of_raw item with
  | .ok text => text
  | .error _ => ""

/-- The page that the store reads back. It takes page 0 for no page. -/
def stored_page (item : RawContentItem) : Int :=
  if item.page_idx + 1 = 0 then 1 else item.page_idx + 1

/-- What the id of a chunk is a hash of, besides its document. -/
def id_fields (item : RawContentItem) : Int × List Rat × String :=
  (item.page_idx, item.bbox, shown_text item)

/-- What the store tells the chunks of a document apart by. -/
def key_fields (item : RawContentItem) : Int × List String × List Rat × String :=
  (stored_page item, build_heading_path item.heading, item.bbox, shown_text item)

def id_of_item (env : Env) (sha256 : String → String) (result : ResultOf) (item : RawContentItem) :
    String :=
  "ck_" ++ String.ofList ((compute_chunk_hash env sha256 result.document_id item.page_idx item.bbox
    (shown_text item)).toList.take 12)

def hash_of_item (env : Env) (result : ResultOf) (item : RawContentItem) : String :=
  env.chunk_hash result.document_id (stored_page item) ((build_heading_path item.heading).map .str)
    (bbox_value item.bbox) (shown_text item)

/-- Different inputs of the hashes have different hashes, and different
beginnings of them. -/
structure CollisionFree (env : Env) (sha256 : String → String) (result : ResultOf)
    (items : List RawContentItem) : Prop where
  ids : ∀ a ∈ items, ∀ b ∈ items,
    id_of_item env sha256 result a = id_of_item env sha256 result b → id_fields a = id_fields b
  hashes : ∀ a ∈ items, ∀ b ∈ items,
    hash_of_item env result a = hash_of_item env result b → key_fields a = key_fields b

def chunk_id (chunk : PyDict) : PyVal := PyDict.get chunk "chunk_id"

/-! ## The chunks of the service -/

theorem chunks_of_shown {chunks : List PyDict}
    (h : raw_list_to_chunks env sha256 result items = .ok chunks) :
    chunks = (shown items).map fun item => raw_chunk env sha256 result item (shown_text item) := by
  unfold raw_list_to_chunks at h
  change (shown items).mapM _ = _ at h
  have htext : ∀ item ∈ shown items, (do
      let text ← text_of_raw item
      pure (raw_chunk env sha256 result item text)) =
        Except.ok (raw_chunk env sha256 result item (shown_text item)) := by
    intro item hin
    have hyields : Yields ((shown items).mapM fun item => do
        let text ← text_of_raw item
        pure (raw_chunk env sha256 result item text)) := ⟨chunks, h⟩
    obtain ⟨text, htext, -⟩ := yields_bind.1 (yields_mapM.1 hyields item hin)
    unfold shown_text
    rw [htext]
    rfl
  rw [mapM_eq_ok htext] at h
  cases h
  rfl

theorem box_of_dict (value : PyVal) : Gives (from_dict env value) fun item => item.bbox.length = 4 := by
  cases value with
  | dict data =>
    change Gives (item_of_dict env data) _
    unfold item_of_dict
    refine gives_bind fun page => (normalize_bbox_length _ none).bind fun box hbox => ?_
    refine gives_bind fun level => ?_
    rw [gives_pure]
    exact hbox
  | _ => exact gives_error

/-! ## The chunks of the store -/

theorem raw_chunk_place (hbox : item.bbox.length = 4) (text : String) :
    extract_page_and_bbox env (raw_chunk env sha256 result item text) =
      .ok (stored_page item, bbox_value item.bbox) := by
  have hposition : first_position (raw_chunk env sha256 result item text) =
      some [("page", .int (item.page_idx + 1)), ("bbox", bbox_value item.bbox), ("start", .int 0),
        ("end", .int text.length)] := rfl
  have hpage : ((PyVal.int (item.page_idx + 1)).or (.int 1)).toInt = .ok (stored_page item) := by
    unfold PyVal.or stored_page PyVal.truthy
    by_cases hzero : item.page_idx + 1 = 0
    · simp [hzero, PyVal.toInt]
    · simp [hzero, PyVal.toInt]
  have hown : page_and_bbox env [("page", .int (item.page_idx + 1)), ("bbox", bbox_value item.bbox),
      ("start", .int 0), ("end", .int text.length)] =
        .ok (stored_page item, some (bbox_value item.bbox)) := by
    unfold page_and_bbox
    change (((PyVal.int (item.page_idx + 1)).or (.int 1)).toInt >>= fun page =>
      pure (page, if (item.bbox.map PyVal.float).length = 4 then
        some (float_bbox env (item.bbox.map .float)) else none)) = _
    rw [hpage, List.length_map, if_pos hbox, float_bbox_floats]
    rfl
  unfold extract_page_and_bbox
  rw [hposition]
  dsimp only
  rw [hown]
  rfl

/-- The store keeps the id of the service, and takes a hash of its own. -/
theorem shape_of_raw (hbox : item.bbox.length = 4) :
    ∃ chunk, ensure_chunk_shape env result.document_id
        (raw_chunk env sha256 result item (shown_text item)) = .ok chunk ∧
      chunk_id chunk = .str (id_of_item env sha256 result item) ∧
      (PyDict.getD chunk "chunk_hash" (.str "")).toStr env.repr = hash_of_item env result item := by
  have hid : lookupEntry (raw_chunk env sha256 result item (shown_text item)) "chunk_id" =
      some (.str (id_of_item env sha256 result item)) := rfl
  have htext : PyDict.get (raw_chunk env sha256 result item (shown_text item)) "text" =
      .str (shown_text item) := rfl
  have hheadings : get_list (raw_chunk env sha256 result item (shown_text item)) "heading_path" =
      some ((build_heading_path item.heading).map .str) := rfl
  unfold ensure_chunk_shape
  rw [raw_chunk_place hbox, htext, hheadings]
  refine ⟨_, rfl, ?_, ?_⟩
  · unfold chunk_id PyDict.get PyDict.getD
    simp (disch := decide) only [lookup_setdefault_of_ne, lookup_set_any_list_of_ne,
      lookup_set_unless_of_ne]
    rw [set_unless_truthy_same]
    · simp (disch := decide) only [lookup_set_of_ne, hid]
      rfl
    · unfold PyDict.get PyDict.getD
      simp (disch := decide) only [lookup_set_of_ne, hid]
      exact id_truthy _
  · unfold PyDict.getD
    simp (disch := decide) only [lookup_setdefault_of_ne, lookup_set_any_list_of_ne,
      lookup_set_unless_of_ne, lookup_set_truthy_of_ne]
    rw [lookup_set, if_pos rfl, text_or_empty]
    rfl

/-- The store keeps the first chunk of each hash. -/
theorem dedupe_keeps {seen : List String} {stored : List PyDict}
    (hbox : ∀ item ∈ items, item.bbox.length = 4)
    (h : dedupe_chunks env result.document_id seen
      (items.map fun item => raw_chunk env sha256 result item (shown_text item)) = .ok stored) :
    stored.map chunk_id =
      ((keepFirst (hash_of_item env result) seen items).map (id_of_item env sha256 result)).map .str := by
  induction items generalizing seen stored with
  | nil =>
    cases h
    rfl
  | cons item rest ih =>
    rw [List.forall_mem_cons] at hbox
    obtain ⟨chunk, hchunk, hid, hhash⟩ := @shape_of_raw env sha256 result item hbox.1
    rw [List.map_cons] at h
    unfold dedupe_chunks at h
    rw [hchunk] at h
    dsimp only [bind, Except.bind] at h
    rw [hhash] at h
    unfold keepFirst
    by_cases hseen : hash_of_item env result item ∈ seen
    · rw [if_pos hseen] at h ⊢
      exact ih hbox.2 h
    · rw [if_neg hseen] at h ⊢
      rcases hrest : dedupe_chunks env result.document_id (hash_of_item env result item :: seen)
        (rest.map fun item => raw_chunk env sha256 result item (shown_text item)) with e | out
      · rw [hrest] at h
        cases h
      · rw [hrest] at h
        cases h
        rw [List.map_cons, List.map_cons, List.map_cons, hid, ih hbox.2 hrest]

/-! ## The law -/

theorem hash_of_fields {a b : RawContentItem} (h : key_fields a = key_fields b) :
    hash_of_item env result a = hash_of_item env result b := by
  unfold key_fields at h
  simp only [Prod.mk.injEq] at h
  unfold hash_of_item
  rw [h.1, h.2.1, h.2.2.1, h.2.2.2]

theorem id_of_fields {a b : RawContentItem} (h : id_fields a = id_fields b) :
    id_of_item env sha256 result a = id_of_item env sha256 result b := by
  unfold id_fields at h
  simp only [Prod.mk.injEq] at h
  unfold id_of_item
  rw [h.1, h.2.1, h.2.2]

theorem str_injective : Function.Injective PyVal.str := by
  rintro a b ⟨⟩
  rfl

/-- The ids of the stored chunks differ exactly when the headings of the
items that are first with their page, heading, box and text agree wherever
their ids do. -/
theorem chunk_ids_differ_iff (env : Env) (sha256 : String → String) (result : ResultOf)
    (data : List PyVal) (items : List RawContentItem) (chunks stored : List PyDict)
    (hitems : data.mapM (from_dict env) = .ok items)
    (hchunks : raw_list_to_chunks env sha256 result items = .ok chunks)
    (hstored : dedupe_chunks env result.document_id [] chunks = .ok stored)
    (hfree : CollisionFree env sha256 result (shown items)) :
    (stored.map chunk_id).Nodup ↔
      ∀ a b, IsFirst key_fields (shown items) a → IsFirst key_fields (shown items) b →
        id_fields a = id_fields b → build_heading_path a.heading = build_heading_path b.heading := by
  have hbox : ∀ item ∈ shown items, item.bbox.length = 4 := by
    intro item hin
    exact gives_mapM (fun value _ => box_of_dict value) items hitems item (List.mem_of_mem_filter hin)
  rw [chunks_of_shown hchunks] at hstored
  have hhashes : ∀ a ∈ shown items, ∀ b ∈ shown items,
      hash_of_item env result a = hash_of_item env result b ↔ key_fields a = key_fields b :=
    fun a ha b hb => ⟨hfree.hashes a ha b hb, hash_of_fields⟩
  rw [dedupe_keeps hbox hstored, List.nodup_map_iff str_injective, labels_nodup_iff]
  constructor
  · intro h a b ha hb hfields
    have hkeys := h a b ((isFirst_congr hhashes).2 ha) ((isFirst_congr hhashes).2 hb) (id_of_fields hfields)
    exact congrArg (fun fields => fields.2.1) (hfree.hashes a ha.mem b hb.mem hkeys)
  · intro h a b ha hb hid
    have hfields := hfree.ids a ha.mem b hb.mem hid
    have hheadings := h a b ((isFirst_congr hhashes).1 ha) ((isFirst_congr hhashes).1 hb) hfields
    apply hash_of_fields
    unfold id_fields at hfields
    simp only [Prod.mk.injEq] at hfields
    unfold key_fields stored_page
    rw [hfields.1, hheadings, hfields.2.1, hfields.2.2]

/-! ## A heading and a text -/

/-- The digests of the texts below. -/
def digest : String → String
  | "\x7b\"bbox\":[0.0,0.0,1.0,1.0],\"document_id\":\"doc_1\",\"page_idx\":0,\"text\":\"Bid\"\x7d" =>
    "a42b9d988adbd1c5cfb323041d7450e96f7512f1faa5372b55efc2b69aeb4a9e"
  | "\x7b\"bbox\":[0.0,0.0,1.0,1.0],\"document_id\":\"doc_1\",\"page_idx\":0,\"text\":\"Price\"\x7d" =>
    "8c855ce90ece571e8ce676c478d5ebcdb70941e7fab76aedfc13c689c233d84f"
  | _ => ""

def digest_env : Env :=
  { calm_env with
    chunk_hash := fun _ _ heading_path _ text =>
      match heading_path, text with
      | [.str "content"], "Bid" => "7e16874be44fff69f1945eed2a1b6c4cec83db84ad3513539b3e50db3002fe49"
      | [.str "content"], "Price" => "6aa735b7041cb1558146170d6d0d9ba49868ba61efba902a603fa0ddc0beb415"
      | [.str "h1", .str "Bid"], "Bid" => "737e3135d7770a0826749949cdaf014faceb288bc24d1c4cbf9e6e7c3b1cbbf0"
      | _, _ => ""
    repr := fun value =>
      match value with
      | .float x => if x = 0 then "0.0" else if x = 1 then "1.0" else ""
      | _ => "" }

def plain (text : String) (text_level : Option Int) : RawContentItem :=
  ⟨text, "text", 0, [0, 0, 1, 1], text_level, .none, none⟩

def plain_data (text : String) (text_level : PyVal) : PyVal :=
  .dict [("text", .str text), ("text_level", text_level)]

def doc_1 : ResultOf := ⟨"doc_1", "acme", "mineru", "v1"⟩

theorem plain_reads {text : String} {value : PyVal} {level : Option Int}
    (hlevel : level_of_item [("text", .str text), ("text_level", value)] = .ok level) :
    from_dict digest_env (plain_data text value) = .ok (plain text level) := by
  have hbox : normalize_bbox digest_env whole_page none = .ok [0, 0, 1, 1] :=
    normalize_int_box (by decide +kernel) (by decide) (by decide)
  have hown : text_field digest_env [("text", .str text), ("text_level", value)] "text" "" = text := by
    unfold text_field PyDict.get PyDict.getD
    simp only [lookupEntry, if_true, Option.getD_some]
    exact text_or_empty text
  unfold from_dict plain_data item_of_dict
  dsimp only
  rw [show page_of_item [("text", .str text), ("text_level", value)] = .ok 0 from rfl,
    show box_of_item [("text", .str text), ("text_level", value)] = whole_page from rfl, hbox, hlevel, hown]
  rfl

theorem plain_stored {items : List RawContentItem} (hbox : ∀ item ∈ items, item.bbox.length = 4) :
    ∃ stored, dedupe_chunks digest_env "doc_1" []
      (items.map fun item => raw_chunk digest_env digest doc_1 item (shown_text item)) = .ok stored := by
  have hshaped : ∀ chunk ∈ items.map fun item => raw_chunk digest_env digest doc_1 item (shown_text item),
      Shaped digest_env chunk := by
    intro chunk hin
    obtain ⟨item, hitem, rfl⟩ := List.mem_map.1 hin
    exact ⟨_, _, raw_chunk_place (hbox item hitem) _⟩
  obtain ⟨stored, hstored, -⟩ := dedupe_returns "doc_1" [] hshaped
  exact ⟨stored, hstored⟩

/-- The ids and the hashes, evaluated all at once. -/
theorem known_digests :
    (id_of_item digest_env digest doc_1 (plain "Bid" none) = "ck_a42b9d988adb" ∧
      id_of_item digest_env digest doc_1 (plain "Bid" (some 1)) = "ck_a42b9d988adb" ∧
      id_of_item digest_env digest doc_1 (plain "Price" none) = "ck_8c855ce90ece") ∧
    hash_of_item digest_env doc_1 (plain "Bid" none) =
      "7e16874be44fff69f1945eed2a1b6c4cec83db84ad3513539b3e50db3002fe49" ∧
    hash_of_item digest_env doc_1 (plain "Price" none) =
      "6aa735b7041cb1558146170d6d0d9ba49868ba61efba902a603fa0ddc0beb415" ∧
    hash_of_item digest_env doc_1 (plain "Bid" (some 1)) =
      "737e3135d7770a0826749949cdaf014faceb288bc24d1c4cbf9e6e7c3b1cbbf0" := by
  decide +kernel

theorem bid_id : id_of_item digest_env digest doc_1 (plain "Bid" none) = "ck_a42b9d988adb" :=
  known_digests.1.1

theorem title_id : id_of_item digest_env digest doc_1 (plain "Bid" (some 1)) = "ck_a42b9d988adb" :=
  known_digests.1.2.1

theorem price_id : id_of_item digest_env digest doc_1 (plain "Price" none) = "ck_8c855ce90ece" :=
  known_digests.1.2.2

theorem bid_hash : hash_of_item digest_env doc_1 (plain "Bid" none) =
    "7e16874be44fff69f1945eed2a1b6c4cec83db84ad3513539b3e50db3002fe49" :=
  known_digests.2.1

theorem price_hash : hash_of_item digest_env doc_1 (plain "Price" none) =
    "6aa735b7041cb1558146170d6d0d9ba49868ba61efba902a603fa0ddc0beb415" :=
  known_digests.2.2.1

theorem title_hash : hash_of_item digest_env doc_1 (plain "Bid" (some 1)) =
    "737e3135d7770a0826749949cdaf014faceb288bc24d1c4cbf9e6e7c3b1cbbf0" :=
  known_digests.2.2.2

/-- Two texts have two ids. -/
theorem bid_and_price_differ :
    ∃ stored, dedupe_chunks digest_env "doc_1" []
        ([plain "Bid" none, plain "Price" none].map fun item =>
          raw_chunk digest_env digest doc_1 item (shown_text item)) = .ok stored ∧
      (stored.map chunk_id).Nodup := by
  obtain ⟨stored, hstored⟩ := @plain_stored [plain "Bid" none, plain "Price" none] (by simp [plain])
  refine ⟨stored, hstored, ?_⟩
  have hfree : CollisionFree digest_env digest doc_1 (shown [plain "Bid" none, plain "Price" none]) := by
    change CollisionFree digest_env digest doc_1 [plain "Bid" none, plain "Price" none]
    constructor
    · simp [bid_id, price_id]
    · simp [bid_hash, price_hash]
  refine (chunk_ids_differ_iff digest_env digest doc_1 [plain_data "Bid" .none, plain_data "Price" .none]
    [plain "Bid" none, plain "Price" none] _ stored ?_ rfl hstored hfree).2 ?_
  · rw [List.mapM_cons, plain_reads rfl, List.mapM_cons, plain_reads rfl]
    rfl
  · have hall : ∀ item ∈ shown [plain "Bid" none, plain "Price" none],
        build_heading_path item.heading = ["content"] := by
      change ∀ item ∈ [plain "Bid" none, plain "Price" none], _
      simp [build_heading_path, plain, RawContentItem.heading]
    intro a b ha hb _
    rw [hall a ha.mem, hall b hb.mem]

/-- A text and a title of the same words have one id, and the store keeps
both. -/
theorem title_and_text_share_an_id :
    [plain_data "Bid" .none, plain_data "Bid" (.int 1)].mapM (from_dict digest_env) =
      .ok [plain "Bid" none, plain "Bid" (some 1)] ∧
    CollisionFree digest_env digest doc_1 [plain "Bid" none, plain "Bid" (some 1)] ∧
    ∃ chunks stored, raw_list_to_chunks digest_env digest doc_1
        [plain "Bid" none, plain "Bid" (some 1)] = .ok chunks ∧
      dedupe_chunks digest_env "doc_1" [] chunks = .ok stored ∧
      stored.map chunk_id = [.str "ck_a42b9d988adb", .str "ck_a42b9d988adb"] ∧
      ¬(stored.map chunk_id).Nodup := by
  have hbox : ∀ item ∈ [plain "Bid" none, plain "Bid" (some 1)], item.bbox.length = 4 := by
    simp [plain]
  obtain ⟨stored, hstored⟩ := plain_stored hbox
  have hids : stored.map chunk_id = [.str "ck_a42b9d988adb", .str "ck_a42b9d988adb"] := by
    rw [dedupe_keeps hbox hstored]
    unfold keepFirst
    rw [if_neg List.not_mem_nil]
    unfold keepFirst
    rw [bid_hash, title_hash, if_neg (by decide)]
    simp [keepFirst, bid_id, title_id]
  refine ⟨?_, ⟨?_, ?_⟩, _, stored, rfl, hstored, hids, ?_⟩
  · rw [List.mapM_cons, plain_reads rfl, List.mapM_cons, plain_reads rfl]
    rfl
  · have hsame : id_fields (plain "Bid" none) = id_fields (plain "Bid" (some 1)) := by
      decide +kernel
    simp [hsame]
  · simp [bid_hash, title_hash]
  · rw [hids]
    simp

end bid_evaluation.chunk_id_laws
