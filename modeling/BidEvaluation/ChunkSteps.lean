-- The steps of the chunking: what one block does, what the end does, and which
-- chunks a run keeps.
import BidEvaluation.ChunkLaws
import BidEvaluation.Lib.Windows

open occurrences windows bid_evaluation.values bid_evaluation.document_parsing bid_evaluation.chunk_laws

namespace bid_evaluation.chunk_steps

variable {generate_chunk_id : Nat → String} {chunk_size chunk_overlap : Int} {s : Chunking}
  {block : PageBlock} {blocks rest : List PageBlock}

/-! ## One block -/

/-- The block is not blank and closes the current chunk. -/
def closes (chunk_size : Int) (s : Chunking) (block : PageBlock) : Prop :=
  strip block.text ≠ "" ∧ is_full chunk_size s (strip block.text) = true

theorem closes_long (h : closes chunk_size s block) : MIN_CHUNK_SIZE ≤ s.current_text.length := by
  have hfull := h.2
  unfold is_full at hfull
  simp only [decide_eq_true_eq] at hfull
  exact hfull.2

theorem closes_some (h : closes chunk_size s block) : s.current_text ≠ "" := by
  intro hempty
  have hlong := closes_long h
  rw [hempty] at hlong
  exact absurd hlong (by decide)

theorem add_block_blank (h : strip block.text = "") :
    add_block generate_chunk_id chunk_size chunk_overlap s block = s := by
  unfold add_block
  dsimp only
  rw [if_pos h]

theorem add_block_open (hsome : strip block.text ≠ "") (h : ¬closes chunk_size s block) :
    add_block generate_chunk_id chunk_size chunk_overlap s block = join_text block (strip block.text) s := by
  unfold add_block
  dsimp only
  rw [if_neg hsome, if_neg fun hfull => h ⟨hsome, hfull⟩]

theorem add_block_closed (h : closes chunk_size s block) :
    add_block generate_chunk_id chunk_size chunk_overlap s block =
      join_text block (strip block.text) (close_chunk generate_chunk_id chunk_overlap block s) := by
  unfold add_block
  dsimp only
  rw [if_neg h.1, if_pos h.2]

@[simp] theorem join_text_chunks (text : String) : (join_text block text s).chunks = s.chunks := by
  unfold join_text
  split <;> rfl

@[simp] theorem join_text_offset (text : String) : (join_text block text s).char_offset = s.char_offset := by
  unfold join_text
  split <;> rfl

theorem join_text_some (block : PageBlock) (text : String) (h : s.current_text ≠ "") :
    (join_text block text s).current_text.toList = s.current_text.toList ++ ['\n'] ++ text.toList := by
  unfold join_text
  rw [if_pos h]
  exact toList_join _ _

theorem join_text_none (text : String) (h : s.current_text = "") :
    (join_text block text s).current_text = text := by
  unfold join_text
  rw [if_neg (not_not.2 h)]

/-- What goes on from a closed chunk. -/
def carried (chunk_overlap : Int) (s : Chunking) : String :=
  if s.current_text.length > chunk_overlap then slice_from s.current_text (-chunk_overlap) else ""

theorem carried_none (h : s.current_text.length ≤ chunk_overlap) : carried chunk_overlap s = "" :=
  if_neg (by omega)

theorem carried_some {overlap : Nat} (hpos : 0 < overlap) (h : overlap < s.current_text.length) :
    (carried overlap s).toList = s.current_text.toList.drop (s.current_text.length - overlap) := by
  unfold carried slice_from
  rw [if_pos (by exact_mod_cast h), if_pos (by omega), String.toList_ofList]
  congr 1
  omega

theorem carried_all : carried 0 s = s.current_text := by
  unfold carried slice_from
  split
  · simp
  · rename_i h
    have hnone : s.current_text.length = 0 := by omega
    exact (String.length_eq_zero_iff.1 hnone).symm

/-- The text after a chunk that is longer than the overlap. -/
theorem closed_long {overlap : Nat} (h : closes chunk_size s block) (hpos : 0 < overlap)
    (hlong : overlap < s.current_text.length) :
    (add_block generate_chunk_id chunk_size overlap s block).current_text.toList =
      s.current_text.toList.drop (s.current_text.length - overlap) ++ ['\n'] ++ (strip block.text).toList := by
  have hcarried : (close_chunk generate_chunk_id overlap block s).current_text.toList =
      s.current_text.toList.drop (s.current_text.length - overlap) := carried_some hpos hlong
  have hkept : (close_chunk generate_chunk_id overlap block s).current_text ≠ "" := by
    intro hempty
    have hletters := congrArg List.length hcarried
    rw [hempty, List.length_drop, String.length_toList, String.length_toList, String.length_empty] at hletters
    omega
  rw [add_block_closed h, join_text_some block _ hkept, hcarried]

/-- The text after a chunk that is no longer than the overlap. -/
theorem closed_short (h : closes chunk_size s block) (hshort : s.current_text.length ≤ chunk_overlap) :
    (add_block generate_chunk_id chunk_size chunk_overlap s block).current_text = strip block.text := by
  rw [add_block_closed h]
  exact join_text_none _ (carried_none hshort)

theorem closed_chunks (h : closes chunk_size s block) :
    (add_block generate_chunk_id chunk_size chunk_overlap s block).chunks =
      s.chunks ++ [current_chunk generate_chunk_id s] := by
  rw [add_block_closed h, join_text_chunks]
  rfl

theorem closed_offset (h : closes chunk_size s block) :
    (add_block generate_chunk_id chunk_size chunk_overlap s block).char_offset =
      s.char_offset + (s.current_text.length - chunk_overlap) := by
  rw [add_block_closed h, join_text_offset]
  rfl

theorem added_some (block : PageBlock) (hsome : strip block.text ≠ "") :
    (add_block generate_chunk_id chunk_size chunk_overlap s block).current_text ≠ "" := by
  have hjoined : ∀ t : Chunking, (join_text block (strip block.text) t).current_text ≠ "" := by
    intro t
    by_cases hempty : t.current_text = ""
    · rw [join_text_none _ hempty]
      exact hsome
    · intro hnone
      have hletters := congrArg String.toList hnone
      rw [join_text_some block _ hempty] at hletters
      exact absurd hletters (by simp)
  by_cases h : closes chunk_size s block
  · rw [add_block_closed h]
    exact hjoined _
  · rw [add_block_open hsome h]
    exact hjoined _

/-- The current text ends with the end of a block. -/
def Ended (s : Chunking) : Prop := EndsSolid is_space s.current_text.toList

theorem Ended.added (h : Ended s) (block : PageBlock) :
    Ended (add_block generate_chunk_id chunk_size chunk_overlap s block) := by
  by_cases hsome : strip block.text = ""
  · rwa [add_block_blank hsome]
  · have hsolid := ends_of_solid (solid_strip hsome)
    have hjoined : ∀ t : Chunking, Ended (join_text block (strip block.text) t) := by
      intro t
      unfold Ended
      by_cases hempty : t.current_text = ""
      · rw [join_text_none _ hempty]
        exact hsolid
      · rw [join_text_some block _ hempty]
        exact hsolid.append_right (toList_ne_nil hsome)
    by_cases hcloses : closes chunk_size s block
    · rw [add_block_closed hcloses]
      exact hjoined _
    · rw [add_block_open hsome hcloses]
      exact hjoined _

/-! ## The end -/

/-- The short text that is left goes to the last chunk. -/
def merges (s : Chunking) : Prop :=
  strip s.current_text ≠ "" ∧ (strip s.current_text).length < MIN_CHUNK_SIZE ∧ s.chunks ≠ []

/-- The last chunk with what is left. -/
def merged_chunk (s : Chunking) (last : DocumentChunk) : DocumentChunk :=
  { last with
    text := last.text ++ "\n" ++ strip s.current_text
    end_char := s.char_offset + s.current_text.length }

theorem close_last_blank (h : strip s.current_text = "") : close_last generate_chunk_id s = s.chunks := by
  unfold close_last
  dsimp only
  rw [if_pos h]

theorem close_last_merged {front : List DocumentChunk} {last : DocumentChunk} (h : merges s)
    (hchunks : s.chunks = front ++ [last]) :
    close_last generate_chunk_id s = front ++ [merged_chunk s last] := by
  unfold close_last
  dsimp only
  rw [if_neg h.1, if_pos h.2.1, hchunks, List.getLast?_concat]
  dsimp only
  rw [List.dropLast_concat]
  rfl

theorem close_last_own (hsome : strip s.current_text ≠ "") (h : ¬merges s) :
    close_last generate_chunk_id s = s.chunks ++ [current_chunk generate_chunk_id s] := by
  unfold close_last
  dsimp only
  rw [if_neg hsome]
  split
  · rename_i hshort
    have hnone : s.chunks = [] := by
      by_contra hchunks
      exact h ⟨hsome, hshort, hchunks⟩
    rw [hnone]
    rfl
  · rfl

/-- With text on, some chunk ends where the text does. -/
theorem close_last_end (generate_chunk_id : Nat → String) (hsome : strip s.current_text ≠ "") : ∃ chunk ∈ close_last generate_chunk_id s,
    chunk.end_char = s.char_offset + s.current_text.length := by
  by_cases h : merges s
  · obtain ⟨front, last, hchunks⟩ := (List.eq_nil_or_concat' s.chunks).resolve_left h.2.2
    rw [close_last_merged h hchunks]
    exact ⟨_, List.mem_append_right _ (List.mem_singleton.2 rfl), rfl⟩
  · rw [close_last_own hsome h]
    exact ⟨_, List.mem_append_right _ (List.mem_singleton.2 rfl), rfl⟩

/-! ## A run -/

def start_state : List PageBlock → Chunking
  | [] => ⟨[], "", 1, [0, 0, 1, 1], 0⟩
  | first :: _ => ⟨[], "", first.page, first.bbox, 0⟩

theorem start_state_fields (blocks : List PageBlock) : (start_state blocks).chunks = [] ∧
    (start_state blocks).current_text = "" ∧ (start_state blocks).char_offset = 0 := by
  cases blocks with
  | nil => exact ⟨rfl, rfl, rfl⟩
  | cons first rest => exact ⟨rfl, rfl, rfl⟩

/-- The variables after the loop. -/
def looped (generate_chunk_id : Nat → String) (chunk_size chunk_overlap : Int) (s : Chunking)
    (blocks : List PageBlock) : Chunking :=
  blocks.foldl (add_block generate_chunk_id chunk_size chunk_overlap) s

theorem looped_cons : looped generate_chunk_id chunk_size chunk_overlap s (block :: rest) =
    looped generate_chunk_id chunk_size chunk_overlap
      (add_block generate_chunk_id chunk_size chunk_overlap s block) rest := by
  unfold looped
  rw [List.foldl_cons]

theorem chunk_text_blocks_eq (generate_chunk_id : Nat → String) (blocks : List PageBlock)
    (chunk_size chunk_overlap : Int) : chunk_text_blocks generate_chunk_id blocks chunk_size chunk_overlap =
      close_last generate_chunk_id
        (looped generate_chunk_id chunk_size chunk_overlap (start_state blocks) blocks) := by
  cases blocks with
  | nil =>
    have hblank : strip (start_state []).current_text = "" := by decide
    exact (close_last_blank hblank).symm
  | cons first rest => rfl

/-- `P` holds of the variables and the block at each turn of the loop. -/
def AtEachBlock (generate_chunk_id : Nat → String) (chunk_size chunk_overlap : Int)
    (P : Chunking → PageBlock → Prop) : Chunking → List PageBlock → Prop
  | _, [] => True
  | s, block :: rest => P s block ∧ AtEachBlock generate_chunk_id chunk_size chunk_overlap P
      (add_block generate_chunk_id chunk_size chunk_overlap s block) rest

/-- The end of the run goes into the last chunk of the state. -/
structure MergedInto (s : Chunking) (chunks : List DocumentChunk) (t : Chunking) (front : List DocumentChunk)
    (last : DocumentChunk) : Prop where
  split : s.chunks = front ++ [last]
  chunks : chunks = front ++ [merged_chunk t last]
  offset : t.char_offset = s.char_offset
  current : s.current_text.toList <+: t.current_text.toList
  ended : Ended t

theorem strip_some (hended : Ended s) (h : s.current_text ≠ "") : strip s.current_text ≠ "" := by
  intro hblank
  have hlt := lead_lt hended (toList_ne_nil h)
  have htrim := toList_strip s.current_text
  rw [hblank, trim_of_ends hended] at htrim
  have hsplit := length_lead_add is_space s.current_text.toList
  rw [← htrim] at hsplit
  simp only [String.toList_empty, List.length_nil] at hsplit
  omega

/-- From a state with text on, its chunks are kept and the next one starts at
its offset, or the rest of the run goes into its last chunk. -/
theorem next_chunk (generate_chunk_id : Nat → String) (chunk_size chunk_overlap : Int) (hended : Ended s)
    (hsome : s.current_text ≠ "") (rest : List PageBlock) :
    (∃ chunk, s.chunks ++ [chunk] <+: close_last generate_chunk_id
        (looped generate_chunk_id chunk_size chunk_overlap s rest) ∧ chunk.start_char = s.char_offset) ∨
      ∃ t front last, MergedInto s (close_last generate_chunk_id
        (looped generate_chunk_id chunk_size chunk_overlap s rest)) t front last := by
  induction rest generalizing s with
  | nil =>
    change (∃ chunk, s.chunks ++ [chunk] <+: close_last generate_chunk_id s ∧ _) ∨
      ∃ t front last, MergedInto s (close_last generate_chunk_id s) t front last
    by_cases hmerges : merges s
    · right
      obtain ⟨front, last, hchunks⟩ := (List.eq_nil_or_concat' s.chunks).resolve_left hmerges.2.2
      exact ⟨s, front, last, hchunks, close_last_merged hmerges hchunks, rfl, List.prefix_refl _, hended⟩
    · left
      rw [close_last_own (strip_some hended hsome) hmerges]
      exact ⟨_, List.prefix_refl _, rfl⟩
  | cons block rest ih =>
    have hadded : Ended (add_block generate_chunk_id chunk_size chunk_overlap s block) := hended.added block
    rw [looped_cons]
    by_cases hblank : strip block.text = ""
    · rw [add_block_blank hblank]
      exact ih hended hsome
    · have hnext := ih hadded (added_some block hblank)
      by_cases hcloses : closes chunk_size s block
      · left
        rw [closed_chunks hcloses] at hnext
        rcases hnext with ⟨chunk, hkept, -⟩ | ⟨t, front, last, hmerged⟩
        · exact ⟨_, (List.prefix_append _ _).trans hkept, rfl⟩
        · have hsplit := hmerged.split
          rw [closed_chunks hcloses] at hsplit
          obtain ⟨hfront, hlast⟩ := List.append_singleton_inj.1 hsplit
          rw [hmerged.chunks, ← hfront, ← hlast]
          exact ⟨_, List.prefix_refl _, rfl⟩
      · rw [add_block_open hblank hcloses] at hnext ⊢
        rw [join_text_chunks, join_text_offset] at hnext
        rcases hnext with hkept | ⟨t, front, last, hmerged⟩
        · exact .inl hkept
        · right
          obtain ⟨hsplit, hchunks, hoffset, hcurrent, ht⟩ := hmerged
          rw [join_text_chunks] at hsplit
          rw [join_text_offset] at hoffset
          rw [join_text_some block _ hsome, List.append_assoc] at hcurrent
          exact ⟨t, front, last, hsplit, hchunks, hoffset, (List.prefix_append _ _).trans hcurrent, ht⟩

end bid_evaluation.chunk_steps
