-- `_save_images` of `mineru_parse_service.py`: the images of a result zip go
-- into the object storage under their base names, and the storage cleans a
-- name before it uses it.
import BidEvaluation.BlobFlags
import BidEvaluation.MineruFiles
import Mathlib.Data.List.TakeWhile

open dict_lib file_tree stepwise bid_evaluation.values bid_evaluation.object_storage
  bid_evaluation.blob_places bid_evaluation.mineru_chunks bid_evaluation.mineru_files

namespace bid_evaluation.mineru_images

variable {β : Type}

/-! ## Names -/

/-- `os.path.splitext(name)[1]`. Dots at the start of the base name do not
count. -/
def extension (name : String) : String :=
  let letters := (basename name).toList.dropWhile (· = '.')
  if '.' ∈ letters then String.ofList ('.' :: (letters.reverse.takeWhile (· ≠ '.')).reverse) else ""

def image_extensions : List String :=
  [".jpg", ".jpeg", ".png", ".gif", ".webp", ".bmp", ".tiff", ".svg"]

def lower (s : String) : String := String.ofList (s.toList.map Char.toLower)

/-- A file in a directory of images that has the name of one. -/
def is_image (name : String) : Bool :=
  (name.startsWith "images/" || "/images/".toList <:+: name.toList) &&
    lower (extension name) ∈ image_extensions && basename name ≠ ""

def content_type_of (name : String) : String :=
  match lower (extension name) with
  | ".jpg" => "image/jpeg"
  | ".jpeg" => "image/jpeg"
  | ".png" => "image/png"
  | ".gif" => "image/gif"
  | ".webp" => "image/webp"
  | ".bmp" => "image/bmp"
  | ".tiff" => "image/tiff"
  | ".svg" => "image/svg+xml"
  | _ => "application/octet-stream"

/-! ## The images of a zip -/

/-- Whose images are saved. -/
structure ImagesOf where
  tenant_id : String
  document_id : String

def image_args (document : ImagesOf) (name : String) (image_bytes : β) : PutArgs β where
  tenant_id := document.tenant_id
  object_type := "document_parse"
  object_id := document.document_id ++ "/images"
  filename := basename name
  content_bytes := image_bytes
  content_type := some (content_type_of name)

/-- The loop over the names of the zip. `now` has the times of the puts,
first to last. -/
def save_entries (storage : LocalObjectStorage β) (is_empty : β → Bool) (now : Nat → Time)
    (document : ImagesOf) (zip : List (ZipEntry β)) : Nat → List (ZipEntry β) → Act β (List String)
  | _, [] => pure []
  | n, entry :: rest =>
    if is_image entry.name then
      if is_empty (zip_read zip entry) then save_entries storage is_empty now document zip n rest
      else do
        let uri ← put_object storage (now n) (image_args document entry.name (zip_read zip entry))
        let storage_uris ← save_entries storage is_empty now document zip (n + 1) rest
        pure (uri :: storage_uris)
    else save_entries storage is_empty now document zip n rest

def save_images (storage : LocalObjectStorage β) (is_empty : β → Bool) (now : Nat → Time)
    (document : ImagesOf) (zip : List (ZipEntry β)) : Act β (List String) :=
  save_entries storage is_empty now document zip 0 zip

/-! ## Cleaned names -/

/-- The letters end with the extension of an image. -/
def EndsAsImage (letters : List Char) : Prop :=
  ∃ stem ending last, letters = stem ++ '.' :: (ending ++ [last]) ∧
    (∀ c ∈ ending ++ [last], is_segment_char c = true) ∧ last.toLower ∈ ['g', 'f', 'p']

theorem segment_of_lower {c : Char} (h : is_segment_char c.toLower = true) : is_segment_char c = true := by
  by_cases hupper : c.isUpper = true
  · rw [segment_char_iff]
    rw [isUpper_iff] at hupper
    exact .inl (.inl (.inl (.inl (.inl hupper))))
  · have hsame : c.toLower = c := by
      unfold Char.toLower
      split
      · rename_i hrange
        exact absurd (isUpper_iff.2 hrange) hupper
      · rfl
    rwa [hsame] at h

theorem image_extensions_end : ∀ ext ∈ image_extensions, ∃ ending last,
    ext.toList = '.' :: (ending ++ [last]) ∧ (∀ c ∈ ending ++ [last], is_segment_char c = true) ∧
      last ∈ ['g', 'f', 'p'] := by
  unfold image_extensions
  simp only [List.forall_mem_cons]
  refine ⟨⟨['j', 'p'], 'g', by decide⟩, ⟨['j', 'p', 'e'], 'g', by decide⟩, ⟨['p', 'n'], 'g', by decide⟩,
    ⟨['g', 'i'], 'f', by decide⟩, ⟨['w', 'e', 'b'], 'p', by decide⟩, ⟨['b', 'm'], 'p', by decide⟩,
    ⟨['t', 'i', 'f'], 'f', by decide⟩, ⟨['s', 'v'], 'g', by decide⟩, by simp⟩

/-- A name with an extension ends with it. -/
theorem basename_ends {name : String} (h : extension name ≠ "") :
    ∃ stem, (basename name).toList = stem ++ (extension name).toList ∧
      (extension name).toList.head? = some '.' := by
  unfold extension at h ⊢
  dsimp only at h ⊢
  split at h
  case isFalse => exact absurd rfl h
  case isTrue hdot =>
    rw [if_pos hdot, String.toList_ofList]
    generalize hletters : (basename name).toList.dropWhile (· = '.') = letters at hdot ⊢
    have hsplit := List.takeWhile_append_dropWhile (p := fun c : Char => decide (c ≠ '.'))
      (l := letters.reverse)
    rcases hrest : letters.reverse.dropWhile (· ≠ '.') with _ | ⟨c, rest⟩
    · have hnone := List.dropWhile_eq_nil_iff.1 hrest '.' (List.mem_reverse.2 hdot)
      simp at hnone
    · have hc : c = '.' := by
        have hhead := List.head?_dropWhile_not (fun c : Char => decide (c ≠ '.')) letters.reverse
        rw [hrest] at hhead
        simpa using hhead
      rw [hrest, hc] at hsplit
      have hends := congrArg List.reverse hsplit
      rw [List.reverse_append, List.reverse_reverse, List.reverse_cons] at hends
      have hbase := List.takeWhile_append_dropWhile (p := fun c : Char => decide (c = '.'))
        (l := (basename name).toList)
      rw [hletters, ← hends] at hbase
      refine ⟨(basename name).toList.takeWhile (· = '.') ++ rest.reverse, ?_, rfl⟩
      exact hbase.symm.trans (by simp)

theorem image_name_ends {name : String} (h : is_image name = true) :
    EndsAsImage (basename name).toList := by
  unfold is_image at h
  simp only [Bool.and_eq_true, decide_eq_true_eq] at h
  obtain ⟨ending, last, hext, hplain, hlast⟩ := image_extensions_end _ h.1.2
  have hsome : extension name ≠ "" := by
    intro hempty
    rw [hempty] at hext
    cases hext
  obtain ⟨stem, hbase, hhead⟩ := basename_ends hsome
  unfold lower at hext
  rw [String.toList_ofList] at hext
  rcases hletters : (extension name).toList with _ | ⟨dot, letters⟩
  · rw [hletters] at hhead
    cases hhead
  · rw [hletters] at hhead hext
    cases hhead
    rw [List.map_cons] at hext
    injection hext with _ hrest
    have hnonempty : letters ≠ [] := by
      rintro rfl
      simp at hrest
    obtain ⟨front, final, rfl⟩ := (List.eq_nil_or_concat' letters).resolve_left hnonempty
    rw [List.map_append, List.map_singleton] at hrest
    obtain ⟨hfront, hfinal⟩ := List.append_inj' hrest rfl
    refine ⟨stem, front, final, by rw [hbase, hletters], ?_, ?_⟩
    · intro c hc
      apply segment_of_lower
      apply hplain
      have hin := List.mem_map_of_mem (f := Char.toLower) hc
      rwa [List.map_append, List.map_singleton, hrest] at hin
    · injection hfinal with hfinal
      rw [hfinal]
      exact hlast

theorem dropWhile_stop {p : Char → Bool} {stem rest : List Char} {c : Char} (h : p c = false) :
    (stem ++ c :: rest).dropWhile p = stem.dropWhile p ++ c :: rest := by
  induction stem with
  | nil => rw [List.nil_append, List.dropWhile_cons_of_neg (by simp [h]), List.dropWhile_nil, List.nil_append]
  | cons d stem ih =>
    rw [List.cons_append, List.dropWhile_cons, List.dropWhile_cons, ih]
    split <;> rfl

theorem squeeze_kept {rest : List Char} {c : Char} (h : is_segment_char c = true) :
    squeeze (c :: rest) = c :: squeeze rest := by
  conv_lhs => unfold squeeze
  rw [if_pos h]

theorem squeeze_other {rest : List Char} {c d : Char} (h : is_segment_char c = false) :
    squeeze (c :: d :: rest) =
      if is_segment_char d then '_' :: squeeze (d :: rest) else squeeze (d :: rest) := by
  conv_lhs => unfold squeeze
  rw [h]
  rfl

theorem squeeze_stop {stem rest : List Char} {c : Char} (h : is_segment_char c = true) :
    squeeze (stem ++ c :: rest) = squeeze stem ++ squeeze (c :: rest) := by
  induction stem with
  | nil => rfl
  | cons d stem ih =>
    cases hd : is_segment_char d with
    | true => rw [List.cons_append, squeeze_kept hd, squeeze_kept hd, ih, List.cons_append]
    | false =>
      cases stem with
      | nil =>
        have hlast : squeeze [d] = ['_'] := by
          unfold squeeze
          rw [hd]
          rfl
        rw [List.cons_append, List.nil_append, squeeze_other hd, if_pos h, hlast]
        rfl
      | cons d' stem =>
        rw [List.cons_append] at ih
        rw [List.cons_append, List.cons_append, squeeze_other hd, squeeze_other hd, ih]
        split <;> rfl

/-- Cleaning keeps the extension. -/
theorem clean_ends {value : String} (h : EndsAsImage value.toList) :
    EndsAsImage (clean_segment value).toList := by
  obtain ⟨stem, ending, last, hletters, hplain, hlast⟩ := h
  have hdot : is_space '.' = false := by decide
  have hend : is_space last = false := (segment_char_plain (hplain last (by simp))).1
  have hstrip : (strip value).toList = stem.dropWhile is_space ++ '.' :: (ending ++ [last]) := by
    unfold strip
    rw [String.toList_ofList, hletters, dropWhile_stop hdot]
    have hreverse : (stem.dropWhile is_space ++ '.' :: (ending ++ [last])).reverse =
        last :: (stem.dropWhile is_space ++ '.' :: ending).reverse := by simp
    rw [hreverse, List.dropWhile_cons_of_neg (by simp [hend]), ← hreverse, List.reverse_reverse]
  have hsqueeze : squeeze (strip value).toList =
      squeeze (stem.dropWhile is_space) ++ '.' :: (ending ++ [last]) := by
    rw [hstrip, squeeze_stop (by decide)]
    congr 1
    apply squeeze_eq
    exact List.forall_mem_cons.2 ⟨by decide, hplain⟩
  have hsome : String.ofList (squeeze (strip value).toList) ≠ "" := by
    intro hempty
    have hnil := congrArg String.toList hempty
    rw [String.toList_ofList, hsqueeze] at hnil
    simp at hnil
  refine ⟨squeeze (stem.dropWhile is_space), ending, last, ?_, hplain, hlast⟩
  unfold clean_segment
  dsimp only
  rw [if_neg hsome, String.toList_ofList, hsqueeze]

theorem EndsAsImage.last {letters : List Char} (h : EndsAsImage letters) :
    ∃ c, letters.getLast? = some c ∧ c.toLower ∈ ['g', 'f', 'p'] := by
  obtain ⟨stem, ending, last, rfl, -, hlast⟩ := h
  refine ⟨last, ?_, hlast⟩
  rw [show stem ++ '.' :: (ending ++ [last]) = (stem ++ '.' :: ending) ++ [last] by simp,
    List.getLast?_concat]

theorem clean_image_plain {value : String} (h : EndsAsImage value.toList) :
    PlainId (clean_segment value) := by
  obtain ⟨c, hc, hlast⟩ := (clean_ends h).last
  refine ⟨segment_clean value, ?_, ?_⟩
  · intro heq
    rw [heq] at hc
    cases hc
    revert hlast
    decide
  · intro heq
    rw [heq] at hc
    cases hc
    revert hlast
    decide

/-- An image is no sidecar. -/
theorem image_ne_sidecar {name : String} (h : EndsAsImage name.toList) (other : String) :
    name ≠ other ++ ".meta.json" := by
  rintro rfl
  obtain ⟨c, hc, hlast⟩ := h.last
  have hjson : ".meta.json".toList = ".meta.jso".toList ++ ['n'] := by decide
  rw [String.toList_append, hjson, ← List.append_assoc, List.getLast?_concat] at hc
  cases hc
  revert hlast
  decide

end bid_evaluation.mineru_images
