-- The law of chunking: the text of each block is in a chunk as a whole, and
-- the blocks come in the chunks in their order.
import BidEvaluation.DocumentParser
import BidEvaluation.Lib.Occurrences

open occurrences bid_evaluation.values bid_evaluation.document_parsing

namespace bid_evaluation.chunk_laws

variable {generate_chunk_id : Nat → String} {s : Chunking} {parts : List (List Char)}

/-! ## Texts as lists -/

theorem toList_strip (text : String) : (strip text).toList = trim is_space text.toList := by
  unfold strip trim
  rw [String.toList_ofList]
  rfl

theorem toList_join (a b : String) : (a ++ "\n" ++ b).toList = a.toList ++ ['\n'] ++ b.toList := by
  rw [String.toList_append, String.toList_append]
  rfl

theorem toList_ne_nil {text : String} (h : text ≠ "") : text.toList ≠ [] := by
  intro hnil
  exact h (String.toList_eq_nil_iff.1 hnil)

theorem solid_strip {text : String} (h : strip text ≠ "") : Solid is_space (strip text).toList := by
  have hlong := toList_ne_nil h
  rw [toList_strip] at hlong ⊢
  exact solid_trim hlong

/-! ## The invariant -/

def texts (chunks : List DocumentChunk) : List (List Char) := chunks.map fun chunk => chunk.text.toList

/-- The texts that were added are in the chunks, and then in the current text. -/
def Holds (s : Chunking) (parts : List (List Char)) : Prop :=
  ∃ closed opened places offsets, parts = closed ++ opened ∧ Placed (texts s.chunks) closed places ∧
    InOrder s.current_text.toList opened offsets

theorem texts_concat (chunks : List DocumentChunk) (chunk : DocumentChunk) :
    texts (chunks ++ [chunk]) = texts chunks ++ [chunk.text.toList] := List.map_append

/-- The current text, as the text of a chunk, holds what it held. -/
theorem close_places {closed opened : List (List Char)} {places : List (Nat × Nat)} {offsets : List Nat}
    (hclosed : Placed (texts s.chunks) closed places) (hopened : InOrder s.current_text.toList opened offsets)
    (hsolid : ∀ part ∈ opened, Solid is_space part) :
    ∃ places', Placed (texts (s.chunks ++ [current_chunk generate_chunk_id s])) (closed ++ opened) places' := by
  have htrimmed := hopened.trim hsolid
  rw [← toList_strip] at htrimmed
  rw [texts_concat]
  exact ⟨_, hclosed.close htrimmed⟩

theorem Holds.close (h : Holds s parts) (hsolid : ∀ part ∈ parts, Solid is_space part) (chunk_overlap : Int)
    (block : PageBlock) : ∃ places, Placed
      (texts (close_chunk generate_chunk_id chunk_overlap block s).chunks) parts places := by
  obtain ⟨closed, opened, places, offsets, rfl, hclosed, hopened⟩ := h
  exact close_places hclosed hopened fun part hin => hsolid part (List.mem_append_right _ hin)

theorem join_holds {closed opened : List (List Char)} {places : List (Nat × Nat)} {offsets : List Nat}
    (hclosed : Placed (texts s.chunks) closed places) (hopened : InOrder s.current_text.toList opened offsets)
    (hlong : ∀ part ∈ opened, part ≠ []) (block : PageBlock) (text : String) :
    Holds (join_text block text s) (closed ++ opened ++ [text.toList]) := by
  unfold join_text
  split
  · have hjoined := hopened.concat (by decide : ['\n'] ≠ []) text.toList
    rw [← toList_join] at hjoined
    exact ⟨closed, opened ++ [text.toList], places, _, List.append_assoc _ _ _, hclosed, hjoined⟩
  · rename_i hempty
    rw [not_not] at hempty
    -- Nothing can stand in the empty text.
    rw [hempty] at hopened
    have hnone := hopened.none_in_nil hlong
    refine ⟨closed, [text.toList], places, [0], by rw [hnone, List.append_nil], hclosed, ?_⟩
    exact in_order_single text.toList

/-- The text that a block adds, if it is not blank. -/
def parts_of (block : PageBlock) : List (List Char) :=
  if strip block.text = "" then [] else [(strip block.text).toList]

theorem solid_parts_of {block : PageBlock} : ∀ part ∈ parts_of block, Solid is_space part := by
  unfold parts_of
  split
  · exact fun _ hin => by cases hin
  · rename_i hlong
    intro part hin
    rw [List.mem_singleton.1 hin]
    exact solid_strip hlong

theorem add_block_holds (chunk_size chunk_overlap : Int) (h : Holds s parts)
    (hsolid : ∀ part ∈ parts, Solid is_space part) (block : PageBlock) :
    Holds (add_block generate_chunk_id chunk_size chunk_overlap s block) (parts ++ parts_of block) := by
  unfold add_block parts_of
  dsimp only
  split
  · rw [List.append_nil]
    exact h
  · split
    · obtain ⟨places, hplaced⟩ := h.close hsolid chunk_overlap block
      have hjoined := join_holds hplaced (in_order_nil _) (fun _ hin => by cases hin) block (strip block.text)
      rwa [List.append_nil] at hjoined
    · obtain ⟨closed, opened, places, offsets, rfl, hclosed, hopened⟩ := h
      exact join_holds hclosed hopened
        (fun part hin => (hsolid part (List.mem_append_right _ hin)).nonempty) block _

theorem blocks_hold (chunk_size chunk_overlap : Int) (page : Int) (bbox : List Rat) (blocks : List PageBlock) :
    Holds (blocks.foldl (add_block generate_chunk_id chunk_size chunk_overlap) ⟨[], "", page, bbox, 0⟩)
      (blocks.flatMap parts_of) := by
  induction blocks using List.reverseRecOn with
  | nil => exact ⟨[], [], [], [], rfl, placed_nil _, in_order_nil _⟩
  | append_singleton blocks block ih =>
    rw [List.foldl_concat, List.flatMap_append, List.flatMap_singleton]
    refine add_block_holds chunk_size chunk_overlap ih (fun part hin => ?_) block
    obtain ⟨b, -, hpart⟩ := List.mem_flatMap.1 hin
    exact solid_parts_of part hpart

/-- The last chunk takes what is left. -/
theorem Holds.close_last (h : Holds s parts) (hsolid : ∀ part ∈ parts, Solid is_space part) :
    ∃ places, Placed (texts (close_last generate_chunk_id s)) parts places := by
  obtain ⟨closed, opened, places, offsets, rfl, hclosed, hopened⟩ := h
  have hopenedsolid : ∀ part ∈ opened, Solid is_space part := fun part hin =>
    hsolid part (List.mem_append_right _ hin)
  have htrimmed := hopened.trim hopenedsolid
  rw [← toList_strip] at htrimmed
  unfold document_parsing.close_last
  dsimp only
  split
  · rename_i hblank
    rw [hblank] at htrimmed
    have hnone := htrimmed.none_in_nil fun part hin => (hopenedsolid part hin).nonempty
    rw [hnone, List.append_nil]
    exact ⟨places, hclosed⟩
  · split
    · split
      · exact close_places hclosed hopened hopenedsolid
      · rename_i last hlast
        obtain ⟨before, hchunks⟩ := List.getLast?_eq_some_iff.1 hlast
        rw [hchunks, texts_concat] at hclosed
        rw [hchunks, List.dropLast_concat, texts_concat, toList_join]
        exact ⟨_, hclosed.extend (by decide) htrimmed⟩
    · exact close_places hclosed hopened hopenedsolid

/-! ## The law -/

/-- The stripped text of the block stands in a chunk. -/
def StandsAt (chunks : List DocumentChunk) (block : PageBlock) (place : Nat × Nat) : Prop :=
  ∃ chunk, chunks[place.1]? = some chunk ∧
    OccursAt (strip block.text).toList chunk.text.toList place.2

def not_blank (block : PageBlock) : Bool := strip block.text ≠ ""

theorem flatMap_parts (blocks : List PageBlock) : blocks.flatMap parts_of =
    (blocks.filter not_blank).map fun block => (strip block.text).toList := by
  induction blocks with
  | nil => rfl
  | cons block rest ih =>
    rw [List.flatMap_cons, ih, List.filter_cons]
    unfold parts_of not_blank
    by_cases hblank : strip block.text = ""
    · simp [hblank]
    · simp [hblank]

theorem chunks_placed (generate_chunk_id : Nat → String) (blocks : List PageBlock)
    (chunk_size chunk_overlap : Int) : ∃ places, Placed
      (texts (chunk_text_blocks generate_chunk_id blocks chunk_size chunk_overlap))
        (blocks.flatMap parts_of) places := by
  unfold chunk_text_blocks
  split
  · exact ⟨[], placed_nil _⟩
  · refine (blocks_hold chunk_size chunk_overlap _ _ _).close_last fun part hin => ?_
    obtain ⟨b, -, hpart⟩ := List.mem_flatMap.1 hin
    exact solid_parts_of part hpart

/-- No text is lost: the blocks that are not blank have places in the chunks
that go on and on, and there is no chunk only if all blocks are blank. -/
theorem chunking_loses_no_text (generate_chunk_id : Nat → String) (blocks : List PageBlock)
    (chunk_size chunk_overlap : Int) :
    (∃ places, List.Forall₂ (StandsAt (chunk_text_blocks generate_chunk_id blocks chunk_size chunk_overlap))
      (blocks.filter not_blank) places ∧ places.Pairwise Before) ∧
    (chunk_text_blocks generate_chunk_id blocks chunk_size chunk_overlap = [] →
      ∀ block ∈ blocks, strip block.text = "") := by
  obtain ⟨places, hplaced⟩ := chunks_placed generate_chunk_id blocks chunk_size chunk_overlap
  rw [flatMap_parts] at hplaced
  constructor
  · obtain ⟨hparts, hincreasing⟩ := hplaced
    rw [List.forall₂_map_left_iff] at hparts
    refine ⟨places, hparts.imp fun block place hplace => ?_, hincreasing⟩
    obtain ⟨text, hget, hoccurs⟩ := hplace
    unfold texts at hget
    rw [List.getElem?_map] at hget
    obtain ⟨chunk, hchunk, rfl⟩ := Option.map_eq_some_iff.1 hget
    exact ⟨chunk, hchunk, hoccurs⟩
  · intro hnone block hin
    rw [hnone] at hplaced
    have hfiltered := List.map_eq_nil_iff.1 hplaced.none_of_no_list
    by_contra hlong
    exact List.filter_eq_nil_iff.1 hfiltered block hin (by simpa [not_blank] using hlong)

end bid_evaluation.chunk_laws
