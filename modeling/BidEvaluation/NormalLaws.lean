-- The laws of a normalised chunk. Its page and its box are written back and
-- read again, and page 0 reads as no page.
import BidEvaluation.Lib.FirstOfKey
import BidEvaluation.Lib.Gives
import BidEvaluation.ParseLaws

open dict_lib stepwise first_of_key bid_evaluation.values bid_evaluation.core
  bid_evaluation.store_parse bid_evaluation.parse_laws
open bid_evaluation.operations (calm_env)

namespace bid_evaluation.normal_laws

variable {env : Env} {document_id : String} {d chunk item : PyDict} {page : Int} {bbox : PyVal}

/-! ## Writes that change nothing -/

theorem set_same {key : String} {v : PyVal} (h : lookupEntry d key = some v) : d.set key v = d := by
  unfold PyDict.set
  induction d with
  | nil => cases h
  | cons e rest ih =>
    obtain ⟨a, b⟩ := e
    unfold lookupEntry at h
    unfold setEntry
    by_cases ha : a = key
    · rw [if_pos ha] at h ⊢
      cases h
      rfl
    · rw [if_neg ha] at h ⊢
      rw [ih h]

theorem setdefault_same {key : String} (v : PyVal) (h : (lookupEntry d key).isSome = true) :
    d.setdefault key v = d := by
  obtain ⟨b, hb⟩ := Option.isSome_iff_exists.1 h
  unfold PyDict.setdefault
  rw [hb]

theorem lookup_setdefault (d : PyDict) (key : String) (v : PyVal) :
    lookupEntry (d.setdefault key v) key = some ((lookupEntry d key).getD v) := by
  unfold PyDict.setdefault
  rcases h : lookupEntry d key with _ | b
  · dsimp only
    rw [lookup_set, if_pos rfl]
    rfl
  · exact h

/-- The value under the key is a list with an element. -/
def HasSome (d : PyDict) (key : String) : Prop := ∃ x xs, lookupEntry d key = some (.list (x :: xs))

theorem get_list_some {key : String} {xs : List PyVal} :
    get_list d key = some xs ↔ lookupEntry d key = some (.list xs) := by
  unfold get_list PyDict.get PyDict.getD
  rcases lookupEntry d key with _ | v
  · simp
  · cases v <;> simp

theorem set_unless_list_same {key : String} (v : PyVal) (h : HasSome d key) :
    set_unless_list d key v = d := by
  obtain ⟨x, xs, h⟩ := h
  unfold set_unless_list
  rw [get_list_some.2 h]

theorem hasSome_set_unless (d : PyDict) (key : String) (x : PyVal) (xs : List PyVal) :
    HasSome (set_unless_list d key (.list (x :: xs))) key := by
  unfold set_unless_list
  split
  · rename_i y ys h
    exact ⟨y, ys, get_list_some.1 h⟩
  · exact ⟨x, xs, by rw [lookup_set, if_pos rfl]⟩

theorem get_list_any (d : PyDict) (key : String) :
    get_list (set_unless_any_list d key) key = some ((get_list d key).getD []) := by
  unfold set_unless_any_list
  rcases h : get_list d key with _ | xs
  · dsimp only
    rw [get_list_some, lookup_set, if_pos rfl]
    rfl
  · exact h

theorem set_any_list_same {key : String} {xs : List PyVal} (h : get_list d key = some xs) :
    set_unless_any_list d key = d := by
  unfold set_unless_any_list
  rw [h]

theorem set_unless_truthy_same {key : String} (v : PyVal) (h : (d.get key).truthy = true) :
    set_unless_truthy d key v = d := if_pos h

theorem truthy_set_unless (d : PyDict) (key : String) {v : PyVal} (h : v.truthy = true) :
    ((set_unless_truthy d key v).get key).truthy = true := by
  unfold set_unless_truthy
  split
  · assumption
  · unfold PyDict.get PyDict.getD
    rw [lookup_set, if_pos rfl]
    exact h

/-! ## A chunk that has its shape -/

def chunk_text (env : Env) (chunk : PyDict) : String :=
  ((chunk.get "text").or (.str "")).toStr env.repr

def heading_path (chunk : PyDict) : List PyVal := (get_list chunk "heading_path").getD []

/-- The keys that are only set if they are missing. -/
def default_keys : List String :=
  ["chunk_type", "parser", "parser_version", "section", "content_source", "text"]

/-- What a chunk of that page and box has after its normalisation. -/
structure Shape (env : Env) (document_id : String) (page : Int) (bbox : PyVal) (item : PyDict) :
    Prop where
  names_document : lookupEntry item "document_id" = some (.str document_id)
  has_page : lookupEntry item "page" = some (.int page)
  has_bbox : lookupEntry item "bbox" = some bbox
  has_hash : lookupEntry item "chunk_hash" = some (.str (env.chunk_hash document_id page
    (heading_path item) bbox (chunk_text env item)))
  has_id : (item.get "chunk_id").truthy = true
  positions : HasSome item "positions"
  pages : HasSome item "pages"
  headings : ∃ xs, get_list item "heading_path" = some xs
  defaults : ∀ key ∈ default_keys, (lookupEntry item key).isSome = true

/-- A chunk with its shape, whose page and box read as they stand, stays as
it is. -/
theorem Shape.kept (h : Shape env document_id page bbox item)
    (hread : extract_page_and_bbox env item = .ok (page, bbox)) :
    ensure_chunk_shape env document_id item = .ok item := by
  obtain ⟨xs, hxs⟩ := h.headings
  have hhash := h.has_hash
  unfold heading_path chunk_text at hhash
  unfold ensure_chunk_shape
  rw [hread]
  dsimp only [bind, Except.bind, pure, Except.pure]
  rw [set_same h.names_document, set_same h.has_page, set_same h.has_bbox, set_same hhash,
    set_unless_truthy_same _ h.has_id, set_unless_list_same _ h.positions, set_unless_list_same _ h.pages,
    set_any_list_same hxs]
  rw [setdefault_same _ (h.defaults "chunk_type" (by decide)),
    setdefault_same _ (h.defaults "parser" (by decide)),
    setdefault_same _ (h.defaults "parser_version" (by decide)),
    setdefault_same _ (h.defaults "section" (by decide)),
    setdefault_same _ (h.defaults "content_source" (by decide)),
    setdefault_same _ (h.defaults "text" (by decide))]

theorem id_truthy (s : String) : (PyVal.str ("ck_" ++ s)).truthy = true := by
  unfold PyVal.truthy
  rw [decide_eq_true_eq]
  intro h
  have hlength := congrArg String.length h
  simp at hlength

/-- The positions that a normalisation gives a chunk without any. -/
def own_positions (page : Int) (bbox : PyVal) (text : String) : PyVal :=
  .list [.dict [("page", .int page), ("bbox", bbox), ("start", .int 0), ("end", .int (max 1 text.length))]]

/-- What a normalisation leaves of the chunk, and the positions that it sets. -/
structure Rewrites (env : Env) (page : Int) (bbox : PyVal) (chunk item : PyDict) : Prop where
  text : chunk_text env item = chunk_text env chunk
  headings : heading_path item = heading_path chunk
  kept : HasSome chunk "positions" → lookupEntry item "positions" = lookupEntry chunk "positions"
  own : ¬HasSome chunk "positions" →
    lookupEntry item "positions" = some (own_positions page bbox (chunk_text env chunk))

theorem set_unless_list_own {key : String} (v : PyVal) (h : ¬HasSome d key) :
    lookupEntry (set_unless_list d key v) key = some v := by
  unfold set_unless_list
  split
  · rename_i x xs hxs
    exact absurd ⟨x, xs, get_list_some.1 hxs⟩ h
  · rw [lookup_set, if_pos rfl]

theorem hasSome_congr {key : String} {d' : PyDict} (h : lookupEntry d key = lookupEntry d' key) :
    HasSome d key ↔ HasSome d' key := by
  unfold HasSome
  rw [h]

theorem get_congr {key : String} {d' : PyDict} (h : lookupEntry d key = lookupEntry d' key) :
    d.get key = d'.get key := by
  unfold PyDict.get PyDict.getD
  rw [h]

theorem get_list_congr {key : String} {d' : PyDict} (h : lookupEntry d key = lookupEntry d' key) :
    get_list d key = get_list d' key := by
  unfold get_list
  rw [get_congr h]

theorem text_or_empty (text : String) : ((PyVal.str text).or (.str "")).toStr env.repr = text := by
  unfold PyVal.or
  by_cases h : text = ""
  · rw [h]
    rfl
  · rw [if_pos (by simpa [PyVal.truthy] using h)]
    rfl

theorem ensure_rewrites (h : ensure_chunk_shape env document_id chunk = .ok item)
    (hread : extract_page_and_bbox env chunk = .ok (page, bbox)) :
    Rewrites env page bbox chunk item := by
  unfold ensure_chunk_shape at h
  rw [hread] at h
  dsimp only [bind, Except.bind, pure, Except.pure] at h
  cases h
  constructor
  · unfold chunk_text PyDict.get PyDict.getD
    rw [lookup_setdefault]
    simp (disch := decide) only [lookup_setdefault_of_ne, lookup_set_any_list_of_ne,
      lookup_set_unless_of_ne, lookup_set_truthy_of_ne, lookup_set_of_ne]
    rcases lookupEntry chunk "text" with _ | v
    · exact text_or_empty _
    · rfl
  · unfold heading_path
    have hlast : ∀ e : PyDict, lookupEntry e "heading_path" = lookupEntry chunk "heading_path" →
        (get_list (set_unless_any_list e "heading_path") "heading_path").getD [] =
          (get_list chunk "heading_path").getD [] := by
      intro e he
      rw [get_list_any, get_list_congr he]
      rfl
    rw [get_list_congr (by
      simp (disch := decide) only [lookup_setdefault_of_ne]
      exact rfl)]
    apply hlast
    simp (disch := decide) only [lookup_set_unless_of_ne, lookup_set_truthy_of_ne, lookup_set_of_ne]
  · intro hsome
    simp (disch := decide) only [lookup_setdefault_of_ne, lookup_set_any_list_of_ne,
      lookup_set_unless_of_ne _ _ (by decide : "positions" ≠ "pages")]
    rw [set_unless_list_same]
    · simp (disch := decide) only [lookup_set_truthy_of_ne, lookup_set_of_ne]
    · refine (hasSome_congr ?_).2 hsome
      simp (disch := decide) only [lookup_set_truthy_of_ne, lookup_set_of_ne]
  · intro hnone
    simp (disch := decide) only [lookup_setdefault_of_ne, lookup_set_any_list_of_ne,
      lookup_set_unless_of_ne _ _ (by decide : "positions" ≠ "pages")]
    apply set_unless_list_own
    refine mt (hasSome_congr ?_).1 hnone
    simp (disch := decide) only [lookup_set_truthy_of_ne, lookup_set_of_ne]

theorem ensure_shapes (h : ensure_chunk_shape env document_id chunk = .ok item)
    (hread : extract_page_and_bbox env chunk = .ok (page, bbox)) :
    Shape env document_id page bbox item := by
  obtain ⟨htext, hheadings, hkept, hown⟩ := ensure_rewrites h hread
  unfold ensure_chunk_shape at h
  rw [hread] at h
  dsimp only [bind, Except.bind, pure, Except.pure] at h
  have hitem := Except.ok.inj h
  constructor
  case has_hash =>
    rw [htext, hheadings, ← hitem]
    simp (disch := decide) only [lookup_setdefault_of_ne, lookup_set_any_list_of_ne,
      lookup_set_unless_of_ne, lookup_set_truthy_of_ne]
    rw [lookup_set, if_pos rfl]
    rfl
  case has_id =>
    rw [← hitem, get_congr (by
      simp (disch := decide) only [lookup_setdefault_of_ne, lookup_set_any_list_of_ne,
        lookup_set_unless_of_ne]
      exact rfl)]
    exact truthy_set_unless _ _ (id_truthy _)
  case positions =>
    by_cases hsome : HasSome chunk "positions"
    · exact (hasSome_congr (hkept hsome)).2 hsome
    · exact ⟨_, _, hown hsome⟩
  case pages =>
    rw [← hitem]
    unfold HasSome
    simp (disch := decide) only [lookup_setdefault_of_ne, lookup_set_any_list_of_ne]
    exact hasSome_set_unless _ _ _ _
  case headings =>
    rw [← hitem, get_list_congr (by
      simp (disch := decide) only [lookup_setdefault_of_ne]
      exact rfl)]
    exact ⟨_, get_list_any _ "heading_path"⟩
  case defaults =>
    rw [← hitem]
    unfold default_keys
    simp (disch := decide) [lookup_setdefault, lookup_setdefault_of_ne]
  all_goals
    rw [← hitem]
    simp (disch := decide) only [lookup_setdefault_of_ne, lookup_set_any_list_of_ne,
      lookup_set_unless_of_ne, lookup_set_truthy_of_ne, lookup_set_of_ne]
    rw [lookup_set, if_pos rfl]

/-! ## The page that is read again -/

/-- The box of the dictionary is a list of four. -/
def HasBox (d : PyDict) : Prop := ∃ bbox, d.get "bbox" = .list bbox ∧ bbox.length = 4

/-- The page comes from the first position: it has a box. -/
def FromPosition (chunk : PyDict) : Prop := ∃ first, first_position chunk = some first ∧ HasBox first

/-- The page of the chunk itself is read, and it is a value that is no zero
but counts as one: a text such as "0" or a fraction between -1 and 1. -/
structure ZeroPage (chunk : PyDict) : Prop where
  own : ¬FromPosition chunk
  given : (chunk.get "page").truthy = true
  zero : (chunk.get "page").toInt = .ok 0

theorem own_page_zero {v : PyVal} : (v.or (.int 1)).toInt = .ok 0 ↔ v.truthy = true ∧ v.toInt = .ok 0 := by
  unfold PyVal.or
  by_cases h : v.truthy = true
  · rw [if_pos h]
    exact ⟨fun hv => ⟨h, hv⟩, fun hv => hv.2⟩
  · rw [if_neg h]
    constructor
    · intro hone
      cases hone
    · intro hv
      exact absurd hv.1 h

/-- Four numbers. -/
def IsBox (v : PyVal) : Prop := ∃ xs : List Rat, xs.length = 4 ∧ v = .list (xs.map .float)

theorem unit_isBox : IsBox unit_bbox := ⟨[0, 0, 1, 1], rfl, rfl⟩

theorem float_bbox_floats (xs : List Rat) : float_bbox env (xs.map .float) = .list (xs.map .float) := by
  have hfloats : (xs.map PyVal.float).mapM (PyVal.toFloat env.float_of_str) = .ok xs := by
    rw [List.mapM_map, mapM_eq_ok (g := fun x => x) fun x _ => by rfl]
    rw [List.map_id']
  unfold float_bbox
  rw [hfloats]

theorem float_bbox_isBox {bbox : List PyVal} (h : bbox.length = 4) : IsBox (float_bbox env bbox) := by
  unfold float_bbox
  rcases hfloats : bbox.mapM (PyVal.toFloat env.float_of_str) with e | xs
  · exact unit_isBox
  · exact ⟨xs, (gives_mapM_length xs hfloats).trans h, rfl⟩

theorem page_and_bbox_of_box {first : PyDict} {r : Int × Option PyVal} (hbox : HasBox first)
    (h : page_and_bbox env first = .ok r) :
    ∃ bbox, r.2 = some bbox ∧ IsBox bbox := by
  obtain ⟨bbox, hget, hlength⟩ := hbox
  unfold page_and_bbox at h
  rw [hget] at h
  rcases hpage : ((first.get "page").or (.int 1)).toInt with e | page
  · rw [hpage] at h
    cases h
  · rw [hpage] at h
    cases h
    exact ⟨_, if_pos hlength, float_bbox_isBox hlength⟩

theorem page_and_bbox_of_no_box {first : PyDict} {r : Int × Option PyVal} (hbox : ¬HasBox first)
    (h : page_and_bbox env first = .ok r) : r.2 = none := by
  unfold page_and_bbox at h
  rcases hpage : ((first.get "page").or (.int 1)).toInt with e | page
  · rw [hpage] at h
    cases h
  · rw [hpage] at h
    split at h
    · rename_i bbox hget
      cases h
      exact if_neg fun hlength => hbox ⟨bbox, hget, hlength⟩
    · cases h
      rfl

/-- A page of the chunk itself has its box or the unit box. -/
theorem own_place {r : Int × Option PyVal} (h : page_and_bbox env chunk = .ok r) :
    ((chunk.get "page").or (.int 1)).toInt = .ok r.1 ∧ IsBox (r.2.getD unit_bbox) := by
  have hpage : ((chunk.get "page").or (.int 1)).toInt = .ok r.1 := by
    unfold page_and_bbox at h
    rcases hpage : ((chunk.get "page").or (.int 1)).toInt with e | page
    · rw [hpage] at h
      cases h
    · rw [hpage] at h
      split at h
      · cases h
        rfl
      · cases h
        rfl
  refine ⟨hpage, ?_⟩
  by_cases hbox : HasBox chunk
  · obtain ⟨bbox, hsome, hbbox⟩ := page_and_bbox_of_box hbox h
    rw [hsome]
    exact hbbox
  · rw [page_and_bbox_of_no_box hbox h]
    exact unit_isBox

/-- The two places that a page and a box come from. -/
theorem extract_cases (h : extract_page_and_bbox env chunk = .ok (page, bbox)) :
    (∃ first, first_position chunk = some first ∧ HasBox first ∧
      page_and_bbox env first = .ok (page, some bbox)) ∨
    (¬FromPosition chunk ∧ ((chunk.get "page").or (.int 1)).toInt = .ok page ∧ IsBox bbox) := by
  have hown : ¬FromPosition chunk →
      (page_and_bbox env chunk >>= fun place => pure (place.1, place.2.getD unit_bbox)) =
        (.ok (page, bbox) : Except PyErr (Int × PyVal)) →
      ¬FromPosition chunk ∧ ((chunk.get "page").or (.int 1)).toInt = .ok page ∧ IsBox bbox := by
    intro hno hread
    rcases hplace : page_and_bbox env chunk with e | r
    · rw [hplace] at hread
      cases hread
    · rw [hplace] at hread
      cases hread
      exact ⟨hno, own_place hplace⟩
  unfold extract_page_and_bbox at h
  rcases hposition : first_position chunk with _ | first
  · rw [hposition] at h
    refine .inr (hown ?_ h)
    rintro ⟨first, hsome, -⟩
    rw [hposition] at hsome
    cases hsome
  · rw [hposition] at h
    dsimp only at h
    rcases hread : page_and_bbox env first with e | r
    · rw [hread] at h
      cases h
    · rw [hread] at h
      by_cases hbox : HasBox first
      · left
        obtain ⟨box, hsome, -⟩ := page_and_bbox_of_box hbox hread
        obtain ⟨place, b⟩ := r
        cases hsome
        cases h
        exact ⟨first, rfl, hbox, hread⟩
      · right
        have hnone := page_and_bbox_of_no_box hbox hread
        obtain ⟨place, b⟩ := r
        cases hnone
        refine hown ?_ h
        rintro ⟨other, hsome, hother⟩
        rw [hposition] at hsome
        cases hsome
        exact hbox hother

/-- A page and a box that were written are read as they stand, but for
page 0. -/
theorem written_place (hbox : IsBox bbox) (hpage : lookupEntry d "page" = some (.int page))
    (hbbox : lookupEntry d "bbox" = some bbox) :
    page_and_bbox env d = .ok (if page = 0 then 1 else page, some bbox) := by
  obtain ⟨xs, hlength, rfl⟩ := hbox
  have hread : ((d.get "page").or (.int 1)).toInt = .ok (if page = 0 then 1 else page) := by
    unfold PyDict.get PyDict.getD PyVal.or
    rw [hpage]
    by_cases hzero : page = 0
    · simp [hzero, PyVal.truthy, PyVal.toInt]
    · simp [hzero, PyVal.truthy, PyVal.toInt]
  have hget : d.get "bbox" = .list (xs.map .float) := by
    unfold PyDict.get PyDict.getD
    rw [hbbox]
    rfl
  unfold page_and_bbox
  rw [hread, hget]
  dsimp only [bind, Except.bind, pure, Except.pure]
  rw [List.length_map, if_pos hlength, float_bbox_floats]

theorem first_position_congr {d' : PyDict} (h : lookupEntry d "positions" = lookupEntry d' "positions") :
    first_position d = first_position d' := by
  unfold first_position PyDict.getD
  rw [h]

theorem extract_of_box {first : PyDict} (hfirst : first_position chunk = some first)
    (hread : page_and_bbox env first = .ok (page, some bbox)) :
    extract_page_and_bbox env chunk = .ok (page, bbox) := by
  unfold extract_page_and_bbox
  rw [hfirst]
  dsimp only
  rw [hread]
  rfl

/-- The chunk itself is read when its first position has no box. -/
theorem extract_of_own {first : PyDict} {r : Int × Option PyVal} (hfirst : first_position chunk = some first)
    (hposition : page_and_bbox env first = .ok r) (hno : ¬HasBox first)
    (hread : page_and_bbox env chunk = .ok (page, some bbox)) :
    extract_page_and_bbox env chunk = .ok (page, bbox) := by
  have hnone := page_and_bbox_of_no_box hno hposition
  obtain ⟨place, box⟩ := r
  cases hnone
  unfold extract_page_and_bbox
  rw [hfirst]
  dsimp only
  rw [hposition]
  dsimp only [bind, Except.bind, pure, Except.pure, Option.map]
  rw [hread]
  rfl

theorem hasSome_of_first {first : PyDict} (h : first_position d = some first) : HasSome d "positions" := by
  unfold first_position PyDict.getD at h
  unfold HasSome
  rcases hpositions : lookupEntry d "positions" with _ | v
  · rw [hpositions] at h
    cases h
  · rw [hpositions] at h
    dsimp only [Option.getD_some] at h
    split at h
    · exact ⟨_, _, rfl⟩
    · exact ⟨_, _, rfl⟩
    · cases h

theorem first_of_hasSome (h : HasSome d "positions") : ∃ first, first_position d = some first := by
  obtain ⟨x, xs, h⟩ := h
  unfold first_position PyDict.getD
  rw [h, Option.getD_some]
  cases x <;> exact ⟨_, rfl⟩

/-- What is read of a chunk that was normalised. -/
theorem read_again (h : ensure_chunk_shape env document_id chunk = .ok item)
    (hread : extract_page_and_bbox env chunk = .ok (page, bbox)) :
    (FromPosition chunk → extract_page_and_bbox env item = .ok (page, bbox)) ∧
    (¬FromPosition chunk →
      extract_page_and_bbox env item = .ok (if page = 0 then 1 else page, bbox)) := by
  have hshape := ensure_shapes h hread
  have hrewrites := ensure_rewrites h hread
  rcases extract_cases hread with ⟨first, hfirst, hbox, hplace⟩ | ⟨hown, -, hbox⟩
  · refine ⟨fun _ => ?_, fun hno => absurd ⟨first, hfirst, hbox⟩ hno⟩
    have hsame := first_position_congr (hrewrites.kept (hasSome_of_first hfirst))
    exact extract_of_box (hsame.trans hfirst) hplace
  · refine ⟨fun hfrom => absurd hfrom hown, fun _ => ?_⟩
    by_cases hsome : HasSome chunk "positions"
    · obtain ⟨first, hfirst⟩ := first_of_hasSome hsome
      obtain ⟨r, hplace⟩ := first_readable ⟨page, bbox, hread⟩ first hfirst
      have hsame := first_position_congr (hrewrites.kept hsome)
      exact extract_of_own (hsame.trans hfirst) hplace (fun hfirst_box => hown ⟨first, hfirst, hfirst_box⟩)
        (written_place hbox hshape.has_page hshape.has_bbox)
    · have hfirst : first_position item = some [("page", .int page), ("bbox", bbox), ("start", .int 0),
          ("end", .int (max 1 (chunk_text env chunk).length))] := by
        unfold first_position PyDict.getD
        rw [hrewrites.own hsome]
        rfl
      exact extract_of_box hfirst (written_place hbox rfl rfl)

/-! ## Normalised twice -/

/-- A normalised chunk stays as it is unless its page was a zero that counts
as a page. -/
theorem normalized_twice_iff (h : ensure_chunk_shape env document_id chunk = .ok item) :
    ensure_chunk_shape env document_id item = .ok item ↔ ¬ZeroPage chunk := by
  rcases hread : extract_page_and_bbox env chunk with e | ⟨page, bbox⟩
  · unfold ensure_chunk_shape at h
    rw [hread] at h
    cases h
  · have hshape := ensure_shapes h hread
    obtain ⟨hposition, hown⟩ := read_again h hread
    rcases extract_cases hread with ⟨first, hfirst, hbox, -⟩ | ⟨hno, hpage, -⟩
    · have hfrom : FromPosition chunk := ⟨first, hfirst, hbox⟩
      exact iff_of_true (hshape.kept (hposition hfrom)) fun hzero => hzero.own hfrom
    · by_cases hzero : page = 0
      · subst hzero
        have hgiven := own_page_zero.1 hpage
        refine iff_of_false ?_ fun hnot => hnot ⟨hno, hgiven.1, hgiven.2⟩
        intro hsame
        have hone := ensure_shapes hsame (hown hno)
        have hpages := hone.has_page.symm.trans hshape.has_page
        cases hpages
      · have hagain := hown hno
        rw [if_neg hzero] at hagain
        refine iff_of_true (hshape.kept hagain) fun hz => hzero ?_
        have hpages := (own_page_zero.2 ⟨hz.given, hz.zero⟩).symm.trans hpage
        cases hpages
        rfl

/-! ## One chunk of each hash -/

def chunk_hash (env : Env) (chunk : PyDict) : String :=
  (PyDict.getD chunk "chunk_hash" (.str "")).toStr env.repr

/-- The chunks are normalised one by one, and the first of each hash is
kept. -/
theorem dedupe_keeps_first (env : Env) (document_id : String) (seen : List String) (chunks : List PyDict) :
    dedupe_chunks env document_id seen chunks =
      (chunks.mapM (ensure_chunk_shape env document_id)).map (keepFirst (chunk_hash env) seen) := by
  induction chunks generalizing seen with
  | nil => rfl
  | cons chunk rest ih =>
    unfold dedupe_chunks
    rw [List.mapM_cons]
    rcases hitem : ensure_chunk_shape env document_id chunk with e | item
    · rfl
    · have hkeep : ∀ items, keepFirst (chunk_hash env) seen (item :: items) =
          if chunk_hash env item ∈ seen then keepFirst (chunk_hash env) seen items
          else item :: keepFirst (chunk_hash env) (chunk_hash env item :: seen) items := by
        intro items
        rfl
      change (if chunk_hash env item ∈ seen then dedupe_chunks env document_id seen rest
        else dedupe_chunks env document_id (chunk_hash env item :: seen) rest >>= fun out =>
          pure (item :: out)) = _
      rw [ih, ih]
      rcases rest.mapM (ensure_chunk_shape env document_id) with e | items
      · split <;> rfl
      · change _ = Except.ok (keepFirst (chunk_hash env) seen (item :: items))
        rw [hkeep]
        split <;> rfl

/-- What the normalisation of the chunks of a document promises. -/
structure NormalizesOnce (env : Env) (document_id : String) (chunks out : List PyDict) : Prop where
  shape_twice : ∀ chunk ∈ chunks, ∀ item, ensure_chunk_shape env document_id chunk = .ok item →
    ensure_chunk_shape env document_id item = .ok item
  hashes_differ : (out.map (chunk_hash env)).Nodup
  keeps_first : ∃ items, chunks.mapM (ensure_chunk_shape env document_id) = .ok items ∧
    out.Sublist items ∧ ∀ item, item ∈ out ↔ IsFirst (chunk_hash env) items item
  dedupe_twice : dedupe_chunks env document_id [] out = .ok out

/-- The digests of a chunk with the text "Bid", the unit box and no heading
on pages 0, 1 and 2. -/
def digest_env : Env :=
  { calm_env with
    chunk_hash := fun _ page _ _ _ =>
      if page = 0 then "24db8763127cab2edd30cc73ab353e61b9fda4c8ebb68de4c0b625bad8715ef6"
      else if page = 1 then "fdda87310dbe00200aa6277457f454fd44816b96467bbe147a1439269294cbda"
      else "3104bc4de80105d1520b9d4ebb5f176f368e76e6200f80f6d20201d30e2f5aa2" }

def bid_chunk (page : String) : PyDict := [("page", .str page), ("text", .str "Bid")]

theorem bid_chunk_own (page : String) : ¬FromPosition (bid_chunk page) := by
  rintro ⟨first, hfirst, -⟩
  cases hfirst

end bid_evaluation.normal_laws
