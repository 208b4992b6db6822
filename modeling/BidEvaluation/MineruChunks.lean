-- `mineru_parse_service.py`: how the content list of a MinerU result becomes
-- chunks. The list is read from the zip before; its items have the types that
-- `MineruContentItem` declares.
import BidEvaluation.ParseLaws
import BidEvaluation.Routes

open dict_lib bid_evaluation.values bid_evaluation.core bid_evaluation.store_parse
  bid_evaluation.parse_laws

namespace bid_evaluation.mineru_chunks

/-! ## Items -/

structure MineruContentItem where
  text : String
  type : String
  page_idx : Int
  bbox : List Rat
  text_level : Option Int
  img_path : Option String
  image_caption : Option (List String)

def is_blank (text : String) : Bool := strip text = ""

/-- `bool(item.img_path)`. -/
def has_img_path (item : MineruContentItem) : Bool :=
  item.img_path.any fun path => path ≠ ""

def has_caption (item : MineruContentItem) : Bool :=
  item.image_caption.any fun captions => captions ≠ []

/-- `os.path.basename`: what comes after the last slash. -/
def basename (path : String) : String :=
  String.ofList (path.toList.reverse.takeWhile (· ≠ '/')).reverse

/-! ## Chunks -/

/-- Only images can do without a text. -/
def is_skipped (item : MineruContentItem) : Bool :=
  is_blank item.text && item.type ≠ "image" && !has_img_path item

/-- The text, or the captions, or the name of the image. -/
def text_of_item (item : MineruContentItem) : String :=
  let text := if is_blank item.text && has_caption item then
    " ".intercalate (item.image_caption.getD []) else item.text
  if is_blank text && has_img_path item then
    "[Image: " ++ basename (item.img_path.getD "") ++ "]" else text

def bbox_value (bbox : List Rat) : PyVal := .list (bbox.map .float)

def compute_chunk_hash (env : Env) (sha256 : String → String) (document_id : String) (page_idx : Int)
    (bbox : List Rat) (text : String) : String :=
  sha256 (routes.dumps env (.dict [("document_id", .str document_id), ("page_idx", .int page_idx),
    ("bbox", bbox_value bbox), ("text", .str text)]))

def build_heading_path (item : MineruContentItem) : List String :=
  match item.text_level with
  | some level =>
    if 1 ≤ level then ["h" ++ toString level, strip (String.ofList (item.text.toList.take 50))]
    else ["content"]
  | none => ["content"]

def infer_section (item : MineruContentItem) : String :=
  match item.text_level with
  | some 1 => "title"
  | some 2 => "section"
  | some 3 => "subsection"
  | some 4 => "subsubsection"
  | _ => "content"

/-- What all chunks of one result share. -/
structure ResultOf where
  document_id : String
  tenant_id : String
  parser : String
  parser_version : String

def image_fields (item : MineruContentItem) : PyDict :=
  (if has_img_path item then [("img_path", .str (item.img_path.getD ""))] else []) ++
    if has_caption item then
      [("image_caption", .list ((item.image_caption.getD []).map .str))] else []

def chunk_of_item (env : Env) (sha256 : String → String) (result : ResultOf)
    (item : MineruContentItem) : PyDict :=
  let text := text_of_item item
  let chunk_hash := compute_chunk_hash env sha256 result.document_id item.page_idx item.bbox text
  [("chunk_id", .str ("ck_" ++ String.ofList (chunk_hash.toList.take 12))),
    ("chunk_hash", .str chunk_hash),
    ("tenant_id", .str result.tenant_id),
    ("document_id", .str result.document_id),
    ("pages", .list [.int (item.page_idx + 1)]),
    ("positions", .list [.dict [("page", .int (item.page_idx + 1)), ("bbox", bbox_value item.bbox),
      ("start", .int 0), ("end", .int text.length)]]),
    ("section", .str (infer_section item)),
    ("heading_path", .list ((build_heading_path item).map .str)),
    ("chunk_type", .str item.type),
    ("parser", .str result.parser),
    ("parser_version", .str result.parser_version),
    ("content_source", .str "mineru_official_api"),
    ("text", .str text)] ++ image_fields item

def content_list_to_chunks (env : Env) (sha256 : String → String) (result : ResultOf)
    (content_list : List MineruContentItem) : List PyDict :=
  (content_list.filter fun item => !is_skipped item).map (chunk_of_item env sha256 result)

/-! ## Their shape -/

theorem page_missing {env : Env} {d : PyDict} (h : lookupEntry d "page" = none) :
    ∃ r, page_and_bbox env d = .ok r := by
  have hpage : ((d.get "page").or (.int 1)).toInt = .ok 1 := by
    unfold PyDict.get PyDict.getD
    rw [h]
    rfl
  unfold page_and_bbox
  rw [hpage]
  split
  · exact ⟨_, rfl⟩
  · exact ⟨_, rfl⟩

theorem image_fields_page (item : MineruContentItem) : lookupEntry (image_fields item) "page" = none := by
  unfold image_fields
  split <;> split <;> rfl

/-- The page of a chunk of the service can be read. -/
theorem chunk_of_item_shaped (env : Env) (sha256 : String → String) (result : ResultOf)
    (item : MineruContentItem) : Shaped env (chunk_of_item env sha256 result item) := by
  have hposition : first_position (chunk_of_item env sha256 result item) =
      some [("page", .int (item.page_idx + 1)), ("bbox", bbox_value item.bbox), ("start", .int 0),
        ("end", .int (text_of_item item).length)] := rfl
  have hrest : lookupEntry (chunk_of_item env sha256 result item) "page" =
      lookupEntry (image_fields item) "page" := rfl
  refine shaped_of_pages (fun first hfirst => ?_) (page_missing ?_)
  · cases hposition.symm.trans hfirst
    exact page_readable (n := item.page_idx + 1) rfl
  · exact hrest.trans (image_fields_page item)

theorem chunks_shaped (env : Env) (sha256 : String → String) (result : ResultOf)
    (content_list : List MineruContentItem) :
    ∀ chunk ∈ content_list_to_chunks env sha256 result content_list, Shaped env chunk := by
  intro chunk hin
  obtain ⟨item, -, rfl⟩ := List.mem_map.1 hin
  exact chunk_of_item_shaped env sha256 result item

/-- The chunks of a result can be given their shape, and lose duplicates. -/
theorem chunks_dedupe (env : Env) (sha256 : String → String) (result : ResultOf)
    (content_list : List MineruContentItem) :
    ∃ chunks, dedupe_chunks env result.document_id []
      (content_list_to_chunks env sha256 result content_list) = .ok chunks := by
  obtain ⟨chunks, hchunks, -⟩ := dedupe_returns result.document_id []
    (chunks_shaped env sha256 result content_list)
  exact ⟨chunks, hchunks⟩

end bid_evaluation.mineru_chunks
