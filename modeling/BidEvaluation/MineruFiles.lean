-- `mineru_parse_service.py` and `MineruContentItem.from_dict` of
-- `mineru_official_api.py`: how the files of a result zip become a content
-- list, and the list becomes chunks. Nothing checks what `json.loads` makes of
-- a file before, so an item can have fields of any type.
import BidEvaluation.Lib.Gives
import BidEvaluation.MineruChunks
import BidEvaluation.ParserAdapters

open dict_lib stepwise bid_evaluation.values bid_evaluation.core bid_evaluation.parser_adapters
  bid_evaluation.mineru_chunks

namespace bid_evaluation.mineru_files

/-! ## Files -/

variable {β : Type}

/-- One file of a zip. Two of them can have the same name. -/
structure ZipEntry (β : Type) where
  name : String
  bytes : β

/-- `zf.read(name)` of a file that is there: the last one of its name. -/
def zip_read (zip : List (ZipEntry β)) (entry : ZipEntry β) : β :=
  ((zip.reverse.find? fun other => other.name = entry.name).getD entry).bytes

def is_text_file (name : String) : Bool :=
  name.endsWith ".md" || name.endsWith ".json" || name.endsWith ".txt"

/-- The texts of a zip by name. `decode` replaces what is no UTF-8. -/
def extract_zip_content (decode : β → String) (zip : List (ZipEntry β)) : List (String × String) :=
  (zip.filter fun entry => is_text_file entry.name).foldl
    (fun content entry => setEntry content entry.name (decode (zip_read zip entry))) []

/-! ## Items -/

/-- A `MineruContentItem` as `from_dict` builds it. -/
structure RawContentItem where
  text : String
  type : String
  page_idx : Int
  bbox : List Rat
  text_level : Option Int
  img_path : PyVal
  image_caption : Option (List PyVal)

def whole_page : List PyVal := [.int 0, .int 0, .int 1, .int 1]

def page_of_item (data : PyDict) : Except PyErr Int := ((PyDict.get data "page_idx").or (.int 0)).toInt

def box_of_item (data : PyDict) : List PyVal :=
  box_or whole_page (PyDict.getD data "bbox" (.list whole_page))

def level_of_item (data : PyDict) : Except PyErr (Option Int) :=
  match PyDict.get data "text_level" with
  | .none => pure none
  | value => do
    let level ← value.toInt
    pure (some level)

def caption_of_item (env : Env) (data : PyDict) : Option (List PyVal) :=
  match PyDict.get data "image_caption" with
  | .none => none
  | .list captions => some captions
  | value => some [.str (value.toStr env.repr)]

def item_of_dict (env : Env) (data : PyDict) : Except PyErr RawContentItem := do
  let page_idx ← page_of_item data
  let bbox ← normalize_bbox env (box_of_item data) none
  let text_level ← level_of_item data
  pure {
    text := text_field env data "text" ""
    type := text_field env data "type" "text"
    page_idx
    bbox
    text_level
    img_path := PyDict.get data "img_path"
    image_caption := caption_of_item env data }

def from_dict (env : Env) : PyVal → Except PyErr RawContentItem
  | .dict data => item_of_dict env data
  | _ => .error (.raised "AttributeError" "object has no attribute 'get'")

/-! ## The content list -/

/-- `except (json.JSONDecodeError, KeyError, TypeError)`. -/
def passes_on : PyErr → Bool
  | .raised class_name _ => class_name ∈ ["JSONDecodeError", "KeyError", "TypeError"]
  | _ => false

/-- The items of one file, unless its JSON is no list. -/
def read_list_file (env : Env) (json_loads : String → Except PyErr PyVal) (text : String) :
    Except PyErr (Option (List RawContentItem)) := do
  match ← json_loads text with
  | .list data => do
    let items ← data.mapM (from_dict env)
    pure (some items)
  | _ => pure none

/-- The loop over the files whose names have one ending. -/
def first_list (env : Env) (json_loads : String → Except PyErr PyVal) (ending : String) :
    List (String × String) → Except PyErr (Option (List RawContentItem))
  | [] => pure none
  | (name, text) :: rest =>
    if name.endsWith ending then
      match read_list_file env json_loads text with
      | .ok (some items) => pure (some items)
      | .ok none => first_list env json_loads ending rest
      | .error e => if passes_on e then first_list env json_loads ending rest else .error e
    else first_list env json_loads ending rest

def parse_content_list (env : Env) (json_loads : String → Except PyErr PyVal)
    (content : List (String × String)) : Except PyErr (List RawContentItem) := do
  match ← first_list env json_loads "_content_list.json" content with
  | some items => pure items
  | none => do
    match ← first_list env json_loads "context_list.json" content with
    | some items => pure items
    | none => pure []

def is_full_md (name : String) : Bool := name = "full.md" || name.endsWith "/full.md"

def extract_full_md (content : List (String × String)) : Option String :=
  match content.find? fun file => is_full_md file.1 with
  | some file => some file.2
  | none => (content.find? fun file => file.1.endsWith ".md").map Prod.snd

/-! ## Chunks -/

def is_skipped_item (item : RawContentItem) : Bool :=
  is_blank item.text && item.type ≠ "image" && !item.img_path.truthy

/-- `" ".join(captions)`. -/
def join_captions (captions : List PyVal) : Except PyErr String := do
  let texts ← captions.mapM fun caption =>
    match caption with
    | .str text => .ok text
    | _ => .error (.raised "TypeError" "sequence item: expected str instance")
  pure (" ".intercalate texts)

def basename_of : PyVal → Except PyErr String
  | .str path => .ok (basename path)
  | _ => .error (.raised "TypeError" "expected str, bytes or os.PathLike object")

/-- The captions of an item without a text stand for it. -/
def caption_text (item : RawContentItem) : Except PyErr String :=
  if is_blank item.text && item.image_caption.getD [] ≠ [] then
    join_captions (item.image_caption.getD [])
  else pure item.text

/-- The name of the image stands for a text that is missing still. -/
def name_text (item : RawContentItem) (text : String) : Except PyErr String :=
  if is_blank text && item.img_path.truthy then do
    let name ← basename_of item.img_path
    pure ("[Image: " ++ name ++ "]")
  else pure text

def text_of_raw (item : RawContentItem) : Except PyErr String := do
  let text ← caption_text item
  name_text item text

/-- The part of an item that its heading and its section come from. -/
def RawContentItem.heading (item : RawContentItem) : MineruContentItem :=
  ⟨item.text, item.type, item.page_idx, item.bbox, item.text_level, none, none⟩

def raw_image_fields (item : RawContentItem) : PyDict :=
  (if item.img_path.truthy then [("img_path", item.img_path)] else []) ++
    if item.image_caption.getD [] ≠ [] then
      [("image_caption", .list (item.image_caption.getD []))] else []

def raw_chunk (env : Env) (sha256 : String → String) (result : ResultOf) (item : RawContentItem)
    (text : String) : PyDict :=
  let chunk_hash := compute_chunk_hash env sha256 result.document_id item.page_idx item.bbox text
  [("chunk_id", .str ("ck_" ++ String.ofList (chunk_hash.toList.take 12))),
    ("chunk_hash", .str chunk_hash),
    ("tenant_id", .str result.tenant_id),
    ("document_id", .str result.document_id),
    ("pages", .list [.int (item.page_idx + 1)]),
    ("positions", .list [.dict [("page", .int (item.page_idx + 1)), ("bbox", bbox_value item.bbox),
      ("start", .int 0), ("end", .int text.length)]]),
    ("section", .str (infer_section item.heading)),
    ("heading_path", .list ((build_heading_path item.heading).map .str)),
    ("chunk_type", .str item.type),
    ("parser", .str result.parser),
    ("parser_version", .str result.parser_version),
    ("content_source", .str "mineru_official_api"),
    ("text", .str text)] ++ raw_image_fields item

def raw_list_to_chunks (env : Env) (sha256 : String → String) (result : ResultOf)
    (content_list : List RawContentItem) : Except PyErr (List PyDict) :=
  (content_list.filter fun item => !is_skipped_item item).mapM fun item => do
    let text ← text_of_raw item
    pure (raw_chunk env sha256 result item text)

/-- What the service makes of the texts of a zip. The markdown goes no
further than the result. -/
def chunks_of_content (env : Env) (json_loads : String → Except PyErr PyVal)
    (sha256 : String → String) (result : ResultOf) (content : List (String × String)) :
    Except PyErr (List PyDict × Option String) := do
  let content_list ← parse_content_list env json_loads content
  let full_md := extract_full_md content
  let chunks ← raw_list_to_chunks env sha256 result content_list
  pure (chunks, full_md)

def chunks_of_zip (env : Env) (decode : β → String) (json_loads : String → Except PyErr PyVal)
    (sha256 : String → String) (result : ResultOf) (zip : List (ZipEntry β)) :
    Except PyErr (List PyDict × Option String) :=
  chunks_of_content env json_loads sha256 result (extract_zip_content decode zip)

/-! ## Items with the declared types -/

def raw_of_item (item : MineruContentItem) : RawContentItem where
  text := item.text
  type := item.type
  page_idx := item.page_idx
  bbox := item.bbox
  text_level := item.text_level
  img_path := (item.img_path.map PyVal.str).getD .none
  image_caption := item.image_caption.map fun captions => captions.map .str

variable {env : Env} {item : MineruContentItem}

theorem img_path_truthy : (raw_of_item item).img_path.truthy = has_img_path item := by
  unfold raw_of_item has_img_path
  cases item.img_path with
  | none => rfl
  | some path => rfl

theorem caption_given :
    decide ((raw_of_item item).image_caption.getD [] ≠ []) = has_caption item := by
  unfold raw_of_item has_caption
  rcases item.image_caption with _ | _ | ⟨caption, captions⟩
  · rfl
  · rfl
  · rfl

theorem join_texts (captions : List String) :
    join_captions (captions.map .str) = .ok (" ".intercalate captions) := by
  unfold join_captions
  rw [List.mapM_map, mapM_eq_ok (g := fun caption => caption) fun caption _ => by rfl]
  rw [List.map_id']
  rfl

theorem captions_of_item : (raw_of_item item).image_caption.getD [] =
    (item.image_caption.getD []).map .str := by
  unfold raw_of_item
  cases item.image_caption with
  | none => rfl
  | some captions => rfl

theorem caption_text_item : caption_text (raw_of_item item) =
    .ok (if is_blank item.text && has_caption item then " ".intercalate (item.image_caption.getD [])
      else item.text) := by
  unfold caption_text
  rw [caption_given, captions_of_item, join_texts, show (raw_of_item item).text = item.text from rfl]
  by_cases h : (is_blank item.text && has_caption item) = true
  · rw [if_pos h, if_pos h]
  · rw [if_neg h, if_neg h]
    rfl

theorem name_text_item (text : String) : name_text (raw_of_item item) text =
    .ok (if is_blank text && has_img_path item then
      "[Image: " ++ basename (item.img_path.getD "") ++ "]" else text) := by
  unfold name_text
  rw [img_path_truthy]
  by_cases himage : (is_blank text && has_img_path item) = true
  · have hname : basename_of (raw_of_item item).img_path = .ok (basename (item.img_path.getD "")) := by
      have hpath := (Bool.and_eq_true_iff.1 himage).2
      unfold has_img_path at hpath
      unfold raw_of_item
      cases hsome : item.img_path with
      | none =>
        rw [hsome] at hpath
        cases hpath
      | some path => rfl
    rw [if_pos himage, if_pos himage, hname]
    rfl
  · rw [if_neg himage, if_neg himage]
    rfl

theorem text_of_raw_item : text_of_raw (raw_of_item item) = .ok (text_of_item item) := by
  unfold text_of_raw
  rw [caption_text_item]
  dsimp only [bind, Except.bind]
  rw [name_text_item]
  unfold text_of_item
  rfl

theorem image_fields_item : raw_image_fields (raw_of_item item) = image_fields item := by
  have hcaption : (item.image_caption.getD []).map PyVal.str ≠ [] ↔ has_caption item = true := by
    rw [← caption_given, captions_of_item, decide_eq_true_eq]
  have hpath : has_img_path item = true → (raw_of_item item).img_path = .str (item.img_path.getD "") := by
    unfold has_img_path raw_of_item
    cases item.img_path with
    | none => simp
    | some path => exact fun _ => rfl
  unfold raw_image_fields image_fields
  rw [img_path_truthy, captions_of_item]
  simp only [hcaption]
  by_cases himage : has_img_path item = true
  · rw [if_pos himage, if_pos himage, hpath himage]
  · rw [if_neg himage, if_neg himage]

/-- Where the fields of the items have the types that are declared, the
service makes chunks of all that are not skipped. -/
theorem raw_list_of_items (env : Env) (sha256 : String → String) (result : ResultOf)
    (content_list : List MineruContentItem) :
    raw_list_to_chunks env sha256 result (content_list.map raw_of_item) =
      .ok (content_list_to_chunks env sha256 result content_list) := by
  unfold raw_list_to_chunks content_list_to_chunks
  have hskipped : ∀ item, is_skipped_item (raw_of_item item) = is_skipped item := by
    intro item
    unfold is_skipped_item is_skipped
    rw [img_path_truthy]
    rfl
  have hchunk : ∀ item, (do
      let text ← text_of_raw (raw_of_item item)
      pure (raw_chunk env sha256 result (raw_of_item item) text)) =
        Except.ok (chunk_of_item env sha256 result item) := by
    intro item
    rw [text_of_raw_item]
    change Except.ok (raw_chunk env sha256 result (raw_of_item item) (text_of_item item)) = _
    unfold raw_chunk chunk_of_item
    rw [image_fields_item]
    rfl
  rw [List.filter_map, List.mapM_map]
  have hsame : ((fun item => !is_skipped_item item) ∘ raw_of_item) = fun item => !is_skipped item := by
    funext item
    exact congrArg Bool.not (hskipped item)
  rw [hsame]
  exact mapM_eq_ok fun item _ => hchunk item

end bid_evaluation.mineru_files
