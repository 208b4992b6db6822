-- The law of chunk offsets. The offset of a chunk is counted from the lengths
-- of the chunks before it, so it is right where each of them was longer than
-- a positive overlap and nothing was left over.
import BidEvaluation.ChunkSteps

open occurrences windows bid_evaluation.values bid_evaluation.document_parsing bid_evaluation.chunk_laws
  bid_evaluation.chunk_steps

namespace bid_evaluation.offset_laws

variable {generate_chunk_id : Nat → String} {chunk_size : Int} {overlap b m : Nat} {s : Chunking}
  {block : PageBlock} {blocks before rest : List PageBlock}

/-! ## The document -/

/-- The stripped texts of the blocks that are not blank, joined by newlines. -/
def document (blocks : List PageBlock) : List Char := ['\n'].intercalate (blocks.flatMap parts_of)

theorem parts_of_blank (h : strip block.text = "") : parts_of block = [] := if_pos h

theorem parts_of_some (h : strip block.text ≠ "") : parts_of block = [(strip block.text).toList] := if_neg h

theorem document_blank (h : strip block.text = "") : document (before ++ [block]) = document before := by
  unfold document
  rw [List.flatMap_append, List.flatMap_singleton, parts_of_blank h, List.append_nil]

theorem document_first (h : strip block.text ≠ "") (hnone : before.flatMap parts_of = []) :
    document (before ++ [block]) = (strip block.text).toList := by
  unfold document
  rw [List.flatMap_append, List.flatMap_singleton, parts_of_some h, hnone]
  exact List.intercalate_singleton

theorem document_more (h : strip block.text ≠ "") (hsome : before.flatMap parts_of ≠ []) :
    document (before ++ [block]) = document before ++ ['\n'] ++ (strip block.text).toList := by
  unfold document
  rw [List.flatMap_append, List.flatMap_singleton, parts_of_some h, intercalate_concat, if_neg hsome]

theorem document_none (h : before.flatMap parts_of = []) : document before = [] := by
  unfold document
  rw [h]
  rfl

theorem document_starts (before rest : List PageBlock) : document before <+: document (before ++ rest) := by
  induction rest using List.reverseRecOn with
  | nil => rw [List.append_nil]
  | append_singleton rest block ih =>
    rw [← List.append_assoc]
    refine ih.trans ?_
    by_cases hblank : strip block.text = ""
    · rw [document_blank hblank]
    · by_cases hnone : (before ++ rest).flatMap parts_of = []
      · rw [document_none hnone]
        exact List.nil_prefix
      · rw [document_more hblank hnone, List.append_assoc]
        exact List.prefix_append _ _

/-! ## Where the current text stands -/

/-- The current text is the end of the document so far, from `b` on. The
offset is less by `overlap + 1` for each of `m` chunks that were as long as
the overlap. -/
structure Tracked (overlap : Nat) (before : List PageBlock) (b m : Nat) (s : Chunking) : Prop where
  current : s.current_text.toList = (document before).drop b
  inside : b ≤ (document before).length
  offset : s.char_offset = (b : Int) - (m * (overlap + 1) : Nat)
  moved : m * (overlap + 1) ≤ b
  start : s.current_text.length ≤ overlap → b = m * (overlap + 1)
  none : s.current_text = "" → before.flatMap parts_of = []
  ended : Ended s

theorem Tracked.length (h : Tracked overlap before b m s) :
    b + s.current_text.length = (document before).length := by
  have hlength := congrArg List.length h.current
  have hinside := h.inside
  rw [String.length_toList, List.length_drop] at hlength
  omega

theorem Tracked.some (h : Tracked overlap before b m s) (hsome : s.current_text ≠ "") :
    before.flatMap parts_of ≠ [] := by
  intro hnone
  have hcurrent := h.current
  rw [document_none hnone, List.drop_nil] at hcurrent
  exact toList_ne_nil hsome hcurrent

theorem tracked_start (overlap : Nat) (blocks : List PageBlock) :
    Tracked overlap [] 0 0 (start_state blocks) := by
  obtain ⟨-, htext, hoffset⟩ := start_state_fields blocks
  have hended : Ended (start_state blocks) := by
    unfold Ended
    rw [htext]
    intro c hc
    cases hc
  exact ⟨by rw [htext]; rfl, Nat.zero_le _, by rw [hoffset]; simp, by simp, by simp, fun _ => rfl, hended⟩

theorem Tracked.blank (h : Tracked overlap before b m s) (hblank : strip block.text = "") :
    Tracked overlap (before ++ [block]) b m s where
  current := by rw [document_blank hblank]; exact h.current
  inside := by rw [document_blank hblank]; exact h.inside
  offset := h.offset
  moved := h.moved
  start := h.start
  none hnone := by
    rw [List.flatMap_append, List.flatMap_singleton, parts_of_blank hblank, List.append_nil]
    exact h.none hnone
  ended := h.ended

/-- A block that closes nothing. -/
theorem Tracked.opened (h : Tracked overlap before b m s) (hsome : strip block.text ≠ "")
    (hopen : ¬closes chunk_size s block) :
    Tracked overlap (before ++ [block]) b m
      (add_block generate_chunk_id chunk_size overlap s block) := by
  have hended : Ended (add_block generate_chunk_id chunk_size overlap s block) := h.ended.added block
  have hadded : (add_block generate_chunk_id chunk_size overlap s block).current_text ≠ "" :=
    added_some block hsome
  have hinside := h.inside
  have hmoved := h.moved
  by_cases hempty : s.current_text = ""
  · have hnone := h.none hempty
    rw [document_none hnone, List.length_nil] at hinside
    have hb : b = 0 := by omega
    rw [add_block_open hsome hopen] at hended hadded ⊢
    refine ⟨?_, by omega, ?_, hmoved, fun _ => by omega, fun hnone => absurd hnone hadded, hended⟩
    · rw [join_text_none _ hempty, document_first hsome hnone, hb]
      rfl
    · rw [join_text_offset]
      exact h.offset
  · have hdocument := document_more hsome (h.some hempty)
    have hlength := h.length
    rw [add_block_open hsome hopen] at hended hadded ⊢
    have hcurrent := join_text_some block (strip block.text) hempty
    refine ⟨?_, ?_, ?_, hmoved, ?_, fun hnone => absurd hnone hadded, hended⟩
    · rw [hcurrent, hdocument, h.current, List.append_assoc, List.append_assoc,
        List.drop_append_of_le_length hinside]
    · rw [hdocument]
      simp only [List.length_append]
      omega
    · rw [join_text_offset]
      exact h.offset
    · intro hshort
      rw [← String.length_toList, hcurrent] at hshort
      simp only [List.length_append, String.length_toList] at hshort
      exact h.start (by omega)

/-- A chunk that is longer than the overlap is closed. -/
theorem Tracked.carried (h : Tracked overlap before b m s) (hcloses : closes chunk_size s block)
    (hpos : 0 < overlap) (hlong : overlap < s.current_text.length) :
    Tracked overlap (before ++ [block]) (b + s.current_text.length - overlap) m
      (add_block generate_chunk_id chunk_size overlap s block) := by
  have hdocument := document_more hcloses.1 (h.some (closes_some hcloses))
  have hlength := h.length
  have hmoved := h.moved
  have hcurrent : (add_block generate_chunk_id chunk_size overlap s block).current_text.toList = _ :=
    closed_long hcloses hpos hlong
  have hfrom : b + (s.current_text.length - overlap) = b + s.current_text.length - overlap := by omega
  refine ⟨?_, ?_, ?_, by omega, ?_, fun hnone => absurd hnone (added_some block hcloses.1), h.ended.added block⟩
  · rw [hcurrent, hdocument, h.current, List.drop_drop, hfrom, List.append_assoc, List.append_assoc,
      List.drop_append_of_le_length (by omega)]
  · rw [hdocument]
    simp only [List.length_append]
    omega
  · rw [closed_offset hcloses, h.offset]
    omega
  · intro hshort
    rw [← String.length_toList, hcurrent] at hshort
    simp only [List.length_append, List.length_drop, String.length_toList, List.length_singleton] at hshort
    omega

/-- A chunk as long as the overlap is closed, and nothing goes on. -/
theorem Tracked.dropped (h : Tracked overlap before b m s) (hcloses : closes chunk_size s block)
    (hwhole : s.current_text.length = overlap) :
    Tracked overlap (before ++ [block]) (b + overlap + 1) (m + 1)
      (add_block generate_chunk_id chunk_size overlap s block) := by
  have hdocument := document_more hcloses.1 (h.some (closes_some hcloses))
  have hlength := h.length
  have hstart := h.start hwhole.le
  have hmoved : (m + 1) * (overlap + 1) = b + overlap + 1 := by rw [Nat.succ_mul, hstart]; rfl
  refine ⟨?_, ?_, ?_, hmoved.le, fun _ => hmoved.symm, fun hnone => absurd hnone (added_some block hcloses.1),
    h.ended.added block⟩
  · rw [closed_short hcloses (by exact_mod_cast hwhole.le), hdocument, List.drop_left']
    rw [List.length_append, List.length_singleton]
    omega
  · rw [hdocument]
    simp only [List.length_append, List.length_singleton]
    omega
  · rw [closed_offset hcloses, hmoved, h.offset, hwhole]
    omega

/-! ## Right offsets -/

/-- `document[start_char:end_char]`. -/
def slice (whole : List Char) (start_char end_char : Int) : List Char :=
  window whole start_char.toNat (end_char - start_char).toNat

/-- The offsets of the chunk lead to its text. -/
structure PointsAt (whole : List Char) (chunk : DocumentChunk) : Prop where
  from_zero : 0 ≤ chunk.start_char
  in_order : chunk.start_char ≤ chunk.end_char
  inside : chunk.end_char ≤ whole.length
  text : chunk.text = strip (String.ofList (slice whole chunk.start_char chunk.end_char))

/-- How many characters two chunks have in common by their offsets. -/
def shared (first second : DocumentChunk) : Int :=
  min first.end_char second.end_char - max first.start_char second.start_char

structure OffsetsRight (whole : List Char) (overlap : Nat) (chunks : List DocumentChunk) : Prop where
  points : ∀ chunk ∈ chunks, PointsAt whole chunk
  neighbours : chunks.IsChain fun first second =>
    first.start_char ≤ second.start_char ∧ shared first second ≤ overlap

/-- A closed chunk is as long as a positive overlap at least. Where it is
just as long, the document repeats. -/
def WellClosed (chunk_size : Int) (overlap : Nat) (whole : List Char) (s : Chunking) (block : PageBlock) : Prop :=
  closes chunk_size s block → 0 < overlap ∧ overlap ≤ s.current_text.length ∧
    (s.current_text.length = overlap → whole.HasPeriod (overlap + 1))

/-- Each chunk is well closed, and no short text goes to the last one. -/
structure WellCut (generate_chunk_id : Nat → String) (chunk_size : Int) (overlap : Nat)
    (blocks : List PageBlock) : Prop where
  closed : AtEachBlock generate_chunk_id chunk_size overlap
    (WellClosed chunk_size overlap (document blocks)) (start_state blocks) blocks
  unmerged : ¬merges (looped generate_chunk_id chunk_size overlap (start_state blocks) blocks)

/-! ## Well cut blocks -/

section well_cut

variable {whole : List Char}

theorem Tracked.points (h : Tracked overlap before b m s) (hpart : document before <+: whole)
    (hperiod : 0 < m → whole.HasPeriod (overlap + 1)) :
    PointsAt whole (current_chunk generate_chunk_id s) := by
  have hmoved := h.moved
  have hlength := h.length
  have hinside := hpart.length_le
  have hcurrent := window_of_start hpart h.inside
  rw [← h.current, String.length_toList] at hcurrent
  have hslice : window whole (b - m * (overlap + 1)) s.current_text.length = s.current_text.toList := by
    rcases Nat.eq_zero_or_pos m with rfl | hm
    · rw [Nat.zero_mul, Nat.sub_zero]
      exact hcurrent
    · rw [← hcurrent, ← window_moved (hperiod hm) (Nat.dvd_mul_left _ m), Nat.sub_add_cancel hmoved]
      omega
  have hoffset := h.offset
  unfold current_chunk
  refine ⟨?_, ?_, ?_, ?_⟩
  · dsimp only
    omega
  · dsimp only
    omega
  · dsimp only
    omega
  · have hfrom : s.char_offset.toNat = b - m * (overlap + 1) := by omega
    have hlong : (s.char_offset + s.current_text.length - s.char_offset).toNat = s.current_text.length := by
      omega
    dsimp only
    unfold slice
    rw [hfrom, hlong, hslice, String.ofList_toList]

/-- The closed chunks are right, and the next one starts where it may. -/
structure Kept (whole : List Char) (overlap : Nat) (s : Chunking) : Prop where
  right : OffsetsRight whole overlap s.chunks
  next : ∀ last ∈ s.chunks.getLast?,
    last.start_char ≤ s.char_offset ∧ last.end_char - s.char_offset ≤ overlap

theorem Kept.concat (h : Kept whole overlap s) {chunk : DocumentChunk} (hpoints : PointsAt whole chunk)
    (hstart : chunk.start_char = s.char_offset) : OffsetsRight whole overlap (s.chunks ++ [chunk]) where
  points := by
    intro other hin
    rcases List.mem_append.1 hin with hin | hin
    · exact h.right.points other hin
    · rw [List.mem_singleton.1 hin]
      exact hpoints
  neighbours := by
    apply List.isChain_append.2
    refine ⟨h.right.neighbours, List.isChain_singleton _, ?_⟩
    intro last hlast next hnext
    cases hnext
    obtain ⟨hle, hend⟩ := h.next last hlast
    unfold shared
    rw [hstart]
    omega

theorem Kept.joined (h : Kept whole overlap s) (text : String) : Kept whole overlap (join_text block text s) := by
  refine ⟨?_, ?_⟩
  · rw [join_text_chunks]
    exact h.right
  · rw [join_text_chunks, join_text_offset]
    exact h.next

theorem Kept.closed (h : Kept whole overlap s) (hpoints : PointsAt whole (current_chunk generate_chunk_id s))
    (hlong : overlap ≤ s.current_text.length) :
    Kept whole overlap (close_chunk generate_chunk_id overlap block s) := by
  refine ⟨h.concat hpoints rfl, ?_⟩
  intro last hlast
  unfold close_chunk at hlast ⊢
  rw [List.getLast?_concat] at hlast
  cases hlast
  unfold current_chunk
  dsimp only
  omega

theorem well_cut_run (hwhole : document (before ++ rest) = whole) (h : Tracked overlap before b m s)
    (hperiod : 0 < m → whole.HasPeriod (overlap + 1)) (hkept : Kept whole overlap s)
    (hclosed : AtEachBlock generate_chunk_id chunk_size overlap (WellClosed chunk_size overlap whole) s rest) :
    ∃ b m, Tracked overlap (before ++ rest) b m (looped generate_chunk_id chunk_size overlap s rest) ∧
      (0 < m → whole.HasPeriod (overlap + 1)) ∧
      Kept whole overlap (looped generate_chunk_id chunk_size overlap s rest) := by
  induction rest generalizing before b m s with
  | nil =>
    rw [List.append_nil]
    exact ⟨b, m, h, hperiod, hkept⟩
  | cons block rest ih =>
    obtain ⟨hfirst, hrest⟩ := hclosed
    have hpart : document before <+: whole := hwhole ▸ document_starts before _
    rw [List.append_cons] at hwhole ⊢
    rw [looped_cons]
    by_cases hblank : strip block.text = ""
    · have hnext := h.blank hblank
      rw [add_block_blank hblank] at hrest ⊢
      exact ih hwhole hnext hperiod hkept hrest
    · by_cases hcloses : closes chunk_size s block
      · obtain ⟨hpos, hlong, hrepeats⟩ := hfirst hcloses
        have hcut : Kept whole overlap (add_block generate_chunk_id chunk_size overlap s block) := by
          rw [add_block_closed hcloses]
          exact (hkept.closed (h.points hpart hperiod) hlong).joined _
        rcases Nat.lt_or_eq_of_le hlong with hlonger | hwhole'
        · exact ih hwhole (h.carried hcloses hpos hlonger) hperiod hcut hrest
        · exact ih hwhole (h.dropped hcloses hwhole'.symm) (fun _ => hrepeats hwhole'.symm) hcut hrest
      · have hcut : Kept whole overlap (add_block generate_chunk_id chunk_size overlap s block) := by
          rw [add_block_open hblank hcloses]
          exact hkept.joined _
        exact ih hwhole (h.opened hblank hcloses) hperiod hcut hrest

theorem well_cut_right (h : WellCut generate_chunk_id chunk_size overlap blocks) :
    OffsetsRight (document blocks) overlap
      (chunk_text_blocks generate_chunk_id blocks chunk_size overlap) := by
  have hstart : Kept (document blocks) overlap (start_state blocks) := by
    obtain ⟨hchunks, -⟩ := start_state_fields blocks
    refine ⟨⟨?_, ?_⟩, ?_⟩
    · rw [hchunks]
      exact fun _ hin => by cases hin
    · rw [hchunks]
      exact List.isChain_nil
    · rw [hchunks]
      exact fun _ hin => by cases hin
  obtain ⟨b, m, htracked, hperiod, hkept⟩ := well_cut_run (List.nil_append _) (tracked_start overlap blocks)
    (fun hm => absurd hm (Nat.lt_irrefl 0)) hstart h.closed
  rw [List.nil_append] at htracked
  rw [chunk_text_blocks_eq]
  by_cases hblank : strip (looped generate_chunk_id chunk_size overlap (start_state blocks) blocks).current_text = ""
  · rw [close_last_blank hblank]
    exact hkept.right
  · rw [close_last_own hblank h.unmerged]
    exact hkept.concat (htracked.points (List.prefix_refl _) hperiod) rfl

end well_cut

/-! ## No overlap -/

/-- With no overlap the whole document so far goes on, and only the offset
moves. -/
structure GoesOn (before : List PageBlock) (s : Chunking) : Prop where
  current : s.current_text.toList = document before
  none : s.current_text = "" → before.flatMap parts_of = [] ∧ s.chunks = []
  offset : 0 ≤ s.char_offset
  moved : s.chunks ≠ [] → 0 < s.char_offset
  ended : Ended s

theorem GoesOn.step (h : GoesOn before s) (block : PageBlock) :
    GoesOn (before ++ [block]) (add_block generate_chunk_id chunk_size 0 s block) := by
  have hended : Ended (add_block generate_chunk_id chunk_size 0 s block) := h.ended.added block
  by_cases hblank : strip block.text = ""
  · rw [add_block_blank hblank]
    refine ⟨?_, ?_, h.offset, h.moved, h.ended⟩
    · rw [document_blank hblank]
      exact h.current
    · rw [List.flatMap_append, List.flatMap_singleton, parts_of_blank hblank, List.append_nil]
      exact h.none
  · have hsome : s.current_text ≠ "" → before.flatMap parts_of ≠ [] := by
      intro hne hnone
      have hcurrent := h.current
      rw [document_none hnone] at hcurrent
      exact toList_ne_nil hne hcurrent
    have hadded : (add_block generate_chunk_id chunk_size 0 s block).current_text ≠ "" :=
      added_some block hblank
    have hoffset := h.offset
    by_cases hcloses : closes chunk_size s block
    · have hlong := closes_long hcloses
      unfold MIN_CHUNK_SIZE at hlong
      have hcarried : (close_chunk generate_chunk_id 0 block s).current_text = s.current_text := carried_all
      have hsome' : (close_chunk generate_chunk_id 0 block s).current_text ≠ "" := by
        rw [hcarried]
        exact closes_some hcloses
      have hcurrent := join_text_some block (strip block.text) hsome'
      refine ⟨?_, fun hnone => absurd hnone hadded, ?_, fun _ => ?_, hended⟩
      · rw [add_block_closed hcloses, hcurrent, hcarried,
          document_more hblank (hsome (closes_some hcloses)), h.current]
      · rw [closed_offset hcloses]
        omega
      · rw [closed_offset hcloses]
        omega
    · refine ⟨?_, fun hnone => absurd hnone hadded, ?_, ?_, hended⟩
      · rw [add_block_open hblank hcloses]
        by_cases hempty : s.current_text = ""
        · rw [join_text_none _ hempty, document_first hblank (h.none hempty).1]
        · rw [join_text_some block _ hempty, document_more hblank (hsome hempty), h.current]
      · rw [add_block_open hblank hcloses, join_text_offset]
        exact hoffset
      · rw [add_block_open hblank hcloses, join_text_offset, join_text_chunks]
        exact h.moved

theorem GoesOn.run (h : GoesOn before s) (rest : List PageBlock) :
    GoesOn (before ++ rest) (looped generate_chunk_id chunk_size 0 s rest) := by
  induction rest generalizing before s with
  | nil =>
    rw [List.append_nil]
    exact h
  | cons block rest ih =>
    rw [List.append_cons, looped_cons]
    exact ih (h.step block)

/-- With no overlap and right offsets there is no chunk but the last. -/
theorem no_overlap_whole
    (h : OffsetsRight (document blocks) 0 (chunk_text_blocks generate_chunk_id blocks chunk_size 0)) :
    (looped generate_chunk_id chunk_size 0 (start_state blocks) blocks).chunks = [] := by
  obtain ⟨hchunks, htext, hoffset⟩ := start_state_fields blocks
  have hended : Ended (start_state blocks) := (tracked_start 0 blocks).ended
  have hstart : GoesOn [] (start_state blocks) :=
    ⟨by rw [htext]; rfl, fun _ => ⟨rfl, hchunks⟩, hoffset.ge, fun hne => absurd hchunks hne, hended⟩
  have hend : GoesOn blocks (looped generate_chunk_id chunk_size 0 (start_state blocks) blocks) := hstart.run blocks
  rw [chunk_text_blocks_eq] at h
  change OffsetsRight (document blocks) 0 (close_last generate_chunk_id
    (looped generate_chunk_id chunk_size 0 (start_state blocks) blocks)) at h
  generalize looped generate_chunk_id chunk_size 0 (start_state blocks) blocks = t at h hend ⊢
  by_contra hne
  have hsome : t.current_text ≠ "" := fun hempty => hne (hend.none hempty).2
  obtain ⟨chunk, hin, hstop⟩ := close_last_end generate_chunk_id (strip_some hend.ended hsome)
  have hinside := (h.points chunk hin).inside
  have hmoved := hend.moved hne
  have hlength := congrArg List.length hend.current
  rw [String.length_toList] at hlength
  omega

/-! ## Right chunks -/

section right

variable {whole : List Char} {chunks : List DocumentChunk}

/-- What right chunks tell of the document so far. -/
structure Told (whole : List Char) (overlap b m : Nat) (s : Chunking) : Prop where
  lead : s.current_text.toList.takeWhile is_space <+: whole.drop (b - m * (overlap + 1))
  period : 0 < m → (whole.take b).HasPeriod (overlap + 1)
  newline : 0 < m → s.current_text.length ≤ overlap → whole[b - 1]? = some '\n'

/-- A right chunk stands at its offset as it is. -/
theorem Tracked.stands (h : Tracked overlap before b m s) (htold : Told whole overlap b m s)
    (hpoints : PointsAt whole (current_chunk generate_chunk_id s)) :
    window whole (b - m * (overlap + 1)) s.current_text.length = s.current_text.toList := by
  have hmoved := h.moved
  have hoffset := h.offset
  have hfrom : s.char_offset.toNat = b - m * (overlap + 1) := by omega
  have hlong : (s.char_offset + s.current_text.length - s.char_offset).toNat = s.current_text.length := by
    omega
  have hinside : s.char_offset + s.current_text.length ≤ whole.length := hpoints.inside
  have htext : strip s.current_text = strip (String.ofList (slice whole s.char_offset
    (s.char_offset + s.current_text.length))) := hpoints.text
  unfold slice at htext
  rw [hfrom, hlong] at htext
  have hletters := congrArg String.toList htext
  rw [toList_strip, toList_strip, String.toList_ofList] at hletters
  have hlength : (window whole (b - m * (overlap + 1)) s.current_text.length).length =
      s.current_text.length := length_window (by omega)
  refine (eq_of_trim h.ended ?_ ?_ hletters).symm
  · apply List.prefix_of_prefix_length_le htold.lead (window_starts _ _ _)
    rw [hlength, ← String.length_toList]
    exact (List.takeWhile_prefix is_space).length_le
  · rw [hlength, String.length_toList]

/-- A right chunk carries the period on to its end. -/
theorem Tracked.repeats (h : Tracked overlap before b m s) (htold : Told whole overlap b m s)
    (hpart : document before <+: whole) (hpoints : PointsAt whole (current_chunk generate_chunk_id s))
    (hm : 0 < m) : (whole.take (b + s.current_text.length)).HasPeriod (overlap + 1) := by
  have hcurrent := window_of_start hpart h.inside
  rw [← h.current, String.length_toList] at hcurrent
  have hinside := hpart.length_le
  have hlength := h.length
  apply period_extends (htold.period hm) (Nat.dvd_mul_left _ m) (Nat.mul_pos hm (Nat.succ_pos _)) h.moved
  · omega
  · rw [hcurrent, h.stands htold hpoints]

theorem Told.opened (h : Tracked overlap before b m s) (htold : Told whole overlap b m s)
    (hsome : strip block.text ≠ "") (hopen : ¬closes chunk_size s block) :
    Told whole overlap b m (add_block generate_chunk_id chunk_size overlap s block) := by
  have hinside := h.inside
  have hmoved := h.moved
  rw [add_block_open hsome hopen]
  by_cases hempty : s.current_text = ""
  · have hnone := h.none hempty
    rw [document_none hnone, List.length_nil] at hinside
    have hzero : ¬0 < m := by
      intro hm
      have hlarge : 0 < m * (overlap + 1) := Nat.mul_pos hm (Nat.succ_pos overlap)
      omega
    refine ⟨?_, fun hm => absurd hm hzero, fun hm => absurd hm hzero⟩
    rw [join_text_none _ hempty, no_lead_of_solid (solid_strip hsome)]
    exact List.nil_prefix
  · have hcurrent := join_text_some block (strip block.text) hempty
    refine ⟨?_, htold.period, fun hm hshort => ?_⟩
    · rw [hcurrent, List.append_assoc, lead_append h.ended (toList_ne_nil hempty)]
      exact htold.lead
    · rw [← String.length_toList, hcurrent] at hshort
      simp only [List.length_append, String.length_toList] at hshort
      exact htold.newline hm (by omega)

theorem Told.carried (h : Tracked overlap before b m s) (htold : Told whole overlap b m s)
    (hpart : document before <+: whole) (hpoints : PointsAt whole (current_chunk generate_chunk_id s))
    (hcloses : closes chunk_size s block) (hpos : 0 < overlap) (hlong : overlap < s.current_text.length) :
    Told whole overlap (b + s.current_text.length - overlap) m
      (add_block generate_chunk_id chunk_size overlap s block) := by
  have hcurrent : (add_block generate_chunk_id chunk_size overlap s block).current_text.toList = _ :=
    closed_long hcloses hpos hlong
  have hstands := h.stands htold hpoints
  have hmoved := h.moved
  have hlength : s.current_text.toList.length = s.current_text.length := String.length_toList
  have hsome : s.current_text.toList.drop (s.current_text.length - overlap) ≠ [] := by
    intro hnil
    have hletters := congrArg List.length hnil
    rw [List.length_drop, List.length_nil] at hletters
    omega
  refine ⟨?_, fun hm => ?_, fun hm hshort => ?_⟩
  · rw [hcurrent, List.append_assoc, lead_append (h.ended.drop (by omega)) hsome]
    refine (List.takeWhile_prefix _).trans ?_
    have hdrop := (window_starts whole (b - m * (overlap + 1)) s.current_text.length).drop
      (s.current_text.length - overlap)
    rw [hstands, List.drop_drop] at hdrop
    have hfrom : b - m * (overlap + 1) + (s.current_text.length - overlap) =
        b + s.current_text.length - overlap - m * (overlap + 1) := by omega
    rwa [hfrom] at hdrop
  · exact period_of_start (h.repeats htold hpart hpoints hm) (by omega)
  · rw [← String.length_toList, hcurrent] at hshort
    simp only [List.length_append, List.length_drop, List.length_singleton] at hshort
    omega

theorem Told.dropped (h : Tracked overlap before b m s) (htold : Told whole overlap b m s)
    (hpart : document (before ++ [block]) <+: whole)
    (hpoints : PointsAt whole (current_chunk generate_chunk_id s))
    (hcloses : closes chunk_size s block) (hwhole : s.current_text.length = overlap) :
    Told whole overlap (b + overlap + 1) (m + 1)
      (add_block generate_chunk_id chunk_size overlap s block) := by
  have hlength := h.length
  have hnewline : whole[b + overlap]? = some '\n' := by
    obtain ⟨rest, rfl⟩ := hpart
    rw [document_more hcloses.1 (h.some (closes_some hcloses)), List.append_assoc, List.append_assoc,
      List.getElem?_append_right (by omega)]
    have hzero : b + overlap - (document before).length = 0 := by omega
    rw [hzero]
    rfl
  have hbefore : document before <+: whole := (document_starts before [block]).trans hpart
  refine ⟨?_, fun _ => ?_, fun _ _ => hnewline⟩
  · rw [closed_short hcloses (by exact_mod_cast hwhole.le), no_lead_of_solid (solid_strip hcloses.1)]
    exact List.nil_prefix
  · have hstart := h.start hwhole.le
    rcases Nat.eq_zero_or_pos m with rfl | hm
    · apply List.hasPeriod_of_length_le
      rw [List.length_take]
      omega
    · have hlarge : 0 < m * (overlap + 1) := Nat.mul_pos hm (Nat.succ_pos overlap)
      have hrepeats := h.repeats htold hbefore hpoints hm
      rw [hwhole] at hrepeats
      have hend : b + overlap < whole.length := (List.getElem?_eq_some_iff.1 hnewline).1
      apply period_snoc hrepeats hend (by omega)
      have hback : b + overlap - (overlap + 1) = b - 1 := by omega
      rw [hnewline, hback, htold.newline hm hwhole.le]

theorem length_strip {t : Chunking} (h : Ended t) :
    (t.current_text.toList.takeWhile is_space).length + (strip t.current_text).length =
      t.current_text.length := by
  rw [← String.length_toList, toList_strip, trim_of_ends h, length_lead_add, String.length_toList]

/-- The blanks in front of what goes on are fewer than the overlap. -/
theorem lead_closed (hended : Ended s) (hcloses : closes chunk_size s block) (hpos : 0 < overlap) :
    ((add_block generate_chunk_id chunk_size overlap s block).current_text.toList.takeWhile
      is_space).length ≤ overlap := by
  have hlength : s.current_text.toList.length = s.current_text.length := String.length_toList
  by_cases hlong : overlap < s.current_text.length
  · rw [closed_long hcloses hpos hlong, List.append_assoc]
    have hsome : s.current_text.toList.drop (s.current_text.length - overlap) ≠ [] := by
      intro hnil
      have hletters := congrArg List.length hnil
      rw [List.length_drop, List.length_nil] at hletters
      omega
    rw [lead_append (hended.drop (by omega)) hsome]
    have hle := (List.takeWhile_prefix (l := s.current_text.toList.drop (s.current_text.length - overlap))
      is_space).length_le
    rw [List.length_drop] at hle
    omega
  · rw [closed_short hcloses (by exact_mod_cast Nat.le_of_not_lt hlong),
      no_lead_of_solid (solid_strip hcloses.1)]
    exact Nat.zero_le _

/-- A chunk that takes what is left is too long for its offsets: the overlap
stands in it twice. -/
theorem not_merged_into {t : Chunking} {front : List DocumentChunk} {last : DocumentChunk} (hpos : 0 < overlap)
    (h : Tracked overlap before b m s) (htold : Told whole overlap b m s) (hcloses : closes chunk_size s block)
    (hright : OffsetsRight whole overlap chunks)
    (hmerged : MergedInto (add_block generate_chunk_id chunk_size overlap s block) chunks t front last) :
    False := by
  have hsplit := hmerged.split
  rw [closed_chunks hcloses] at hsplit
  obtain ⟨-, rfl⟩ := List.append_singleton_inj.1 hsplit
  have hpoints := hright.points (merged_chunk t (current_chunk generate_chunk_id s)) (by
    rw [hmerged.chunks]
    exact List.mem_append_right _ (List.mem_singleton.2 rfl))
  have hoffset := hmerged.offset
  rw [closed_offset hcloses] at hoffset
  have hmoved := h.moved
  have hcount := h.offset
  have hfrom : s.char_offset.toNat = b - m * (overlap + 1) := by omega
  have htext : strip s.current_text ++ "\n" ++ strip t.current_text = strip (String.ofList (slice whole
    s.char_offset (t.char_offset + t.current_text.length))) := hpoints.text
  have hletters := congrArg String.toList htext
  rw [toList_join, toList_strip (String.ofList _), String.toList_ofList] at hletters
  unfold slice at hletters
  rw [hfrom] at hletters
  have hblank : ∀ c ∈ s.current_text.toList.takeWhile is_space, is_space c = true :=
    fun c hc => List.mem_takeWhile_imp hc
  have hshort := length_trim_window (n := (t.char_offset + t.current_text.length - s.char_offset).toNat)
    hblank htold.lead
  rw [← hletters] at hshort
  simp only [List.length_append, String.length_toList, List.length_singleton] at hshort
  have hfirst := length_strip h.ended
  have hrest := length_strip hmerged.ended
  have hlead : (t.current_text.toList.takeWhile is_space).length ≤ overlap := by
    obtain ⟨more, hmore⟩ := hmerged.current
    rw [← hmore, lead_append (h.ended.added block) (toList_ne_nil (added_some block hcloses.1))]
    exact lead_closed h.ended hcloses hpos
  omega

theorem last_changes (t : Chunking) (last : DocumentChunk) : merged_chunk t last ≠ last := by
  intro heq
  have hletters := congrArg (fun chunk => chunk.text.toList.length) heq
  unfold merged_chunk at hletters
  dsimp only at hletters
  rw [toList_join, List.length_append, List.length_append, List.length_singleton] at hletters
  omega

/-- Right chunks were well closed, from each state on. -/
theorem right_run (hpos : 0 < overlap) (hwhole : document (before ++ rest) = whole)
    (h : Tracked overlap before b m s) (htold : Told whole overlap b m s)
    (hchunks : close_last generate_chunk_id (looped generate_chunk_id chunk_size overlap s rest) = chunks)
    (hkept : s.chunks <+: chunks) (hright : OffsetsRight whole overlap chunks) :
    AtEachBlock generate_chunk_id chunk_size overlap (WellClosed chunk_size overlap whole) s rest ∧
      ¬merges (looped generate_chunk_id chunk_size overlap s rest) ∧
      (0 < m → whole.HasPeriod (overlap + 1)) := by
  induction rest generalizing before b m s with
  | nil =>
    change close_last generate_chunk_id s = chunks at hchunks
    rw [List.append_nil] at hwhole
    have hunmerged : ¬merges s := by
      intro hmerges
      obtain ⟨front, last, hsplit⟩ := (List.eq_nil_or_concat' s.chunks).resolve_left hmerges.2.2
      rw [← hchunks, close_last_merged hmerges hsplit, hsplit, List.prefix_append_right_inj] at hkept
      exact last_changes s last (List.singleton_inj.1 (hkept.eq_of_length rfl)).symm
    refine ⟨trivial, hunmerged, fun hm => ?_⟩
    have hsome : s.current_text ≠ "" := by
      intro hempty
      have hinside := h.inside
      have hmoved := h.moved
      have hlarge : 0 < m * (overlap + 1) := Nat.mul_pos hm (Nat.succ_pos overlap)
      rw [document_none (h.none hempty), List.length_nil] at hinside
      omega
    have hpoints := hright.points (current_chunk generate_chunk_id s) (by
      rw [← hchunks, close_last_own (strip_some h.ended hsome) hunmerged]
      exact List.mem_append_right _ (List.mem_singleton.2 rfl))
    have hrepeats := h.repeats htold (hwhole ▸ List.prefix_refl _) hpoints hm
    rwa [h.length, hwhole, List.take_length] at hrepeats
  | cons block rest ih =>
    rw [List.append_cons] at hwhole
    have hpart : document (before ++ [block]) <+: whole := hwhole ▸ document_starts _ _
    have hbefore : document before <+: whole := (document_starts before [block]).trans hpart
    rw [looped_cons] at hchunks ⊢
    by_cases hblank : strip block.text = ""
    · have hquiet : WellClosed chunk_size overlap whole s block := fun hcloses => absurd hblank hcloses.1
      unfold AtEachBlock
      rw [add_block_blank hblank] at hchunks ⊢
      obtain ⟨hrest, hlast⟩ := ih hwhole (h.blank hblank) htold hchunks hkept
      exact ⟨⟨hquiet, hrest⟩, hlast⟩
    · by_cases hcloses : closes chunk_size s block
      · have hended : Ended (add_block generate_chunk_id chunk_size overlap s block) := h.ended.added block
        obtain ⟨chunk, hboth, hstart⟩ | ⟨t, front, last, hmerged⟩ := next_chunk generate_chunk_id chunk_size
          overlap hended (added_some block hblank) rest
        · rw [hchunks, closed_chunks hcloses] at hboth
          rw [closed_offset hcloses] at hstart
          have hin : current_chunk generate_chunk_id s ∈ chunks :=
            hboth.subset (List.mem_append_left _ (List.mem_append_right _ (List.mem_singleton.2 rfl)))
          have hpoints := hright.points _ hin
          have hlong : overlap ≤ s.current_text.length := by
            have hchain := hright.neighbours.prefix hboth
            rw [List.append_assoc, List.isChain_append] at hchain
            have hpair := List.isChain_cons_cons.1 hchain.2.1
            have hle : s.char_offset ≤ chunk.start_char := hpair.1.1
            omega
          have hkept' : (add_block generate_chunk_id chunk_size overlap s block).chunks <+: chunks := by
            rw [closed_chunks hcloses]
            exact (List.prefix_append _ _).trans hboth
          rcases Nat.lt_or_eq_of_le hlong with hlonger | hsame
          · obtain ⟨hrest, hlast, hperiod⟩ := ih hwhole (h.carried hcloses hpos hlonger)
              (htold.carried h hbefore hpoints hcloses hpos hlonger) hchunks hkept'
            exact ⟨⟨fun _ => ⟨hpos, hlong, fun heq => absurd heq hlonger.ne'⟩, hrest⟩, hlast, hperiod⟩
          · obtain ⟨hrest, hlast, hperiod⟩ := ih hwhole (h.dropped hcloses hsame.symm)
              (htold.dropped h hpart hpoints hcloses hsame.symm) hchunks hkept'
            exact ⟨⟨fun _ => ⟨hpos, hlong, fun _ => hperiod (Nat.succ_pos m)⟩, hrest⟩, hlast,
              fun _ => hperiod (Nat.succ_pos m)⟩
        · rw [hchunks] at hmerged
          exact (not_merged_into hpos h htold hcloses hright hmerged).elim
      · have hkept' : (add_block generate_chunk_id chunk_size overlap s block).chunks <+: chunks := by
          rw [add_block_open hblank hcloses, join_text_chunks]
          exact hkept
        obtain ⟨hrest, hlast⟩ := ih hwhole (h.opened hblank hcloses) (htold.opened h hblank hcloses)
          hchunks hkept'
        exact ⟨⟨fun h => absurd h hcloses, hrest⟩, hlast⟩

end right

/-! ## The law -/

theorem chunks_stay (hsome : s.chunks ≠ []) (rest : List PageBlock) (chunk_overlap : Int) :
    (looped generate_chunk_id chunk_size chunk_overlap s rest).chunks ≠ [] := by
  induction rest generalizing s with
  | nil => exact hsome
  | cons block rest ih =>
    rw [looped_cons]
    apply ih
    by_cases hblank : strip block.text = ""
    · rwa [add_block_blank hblank]
    · by_cases hcloses : closes chunk_size s block
      · rw [closed_chunks hcloses]
        simp
      · rwa [add_block_open hblank hcloses, join_text_chunks]

/-- A run that ends without chunks has closed none. -/
theorem none_closed {chunk_overlap : Int} {P : Chunking → PageBlock → Prop}
    (h : (looped generate_chunk_id chunk_size chunk_overlap s rest).chunks = [])
    (hopen : ∀ s block, ¬closes chunk_size s block → P s block) :
    AtEachBlock generate_chunk_id chunk_size chunk_overlap P s rest := by
  induction rest generalizing s with
  | nil => trivial
  | cons block rest ih =>
    rw [looped_cons] at h
    refine ⟨hopen s block fun hcloses => ?_, ih h⟩
    have hsome : (add_block generate_chunk_id chunk_size chunk_overlap s block).chunks ≠ [] := by
      rw [closed_chunks hcloses]
      simp
    exact chunks_stay hsome rest chunk_overlap h

/-- The offsets lead to the texts exactly when the blocks are well cut. -/
theorem offsets_point_iff (generate_chunk_id : Nat → String) (blocks : List PageBlock) (chunk_size : Int)
    (chunk_overlap : Nat) :
    OffsetsRight (document blocks) chunk_overlap
        (chunk_text_blocks generate_chunk_id blocks chunk_size chunk_overlap) ↔
      WellCut generate_chunk_id chunk_size chunk_overlap blocks := by
  constructor
  · intro hright
    rcases Nat.eq_zero_or_pos chunk_overlap with rfl | hpos
    · have hnone := no_overlap_whole hright
      exact ⟨none_closed hnone fun s block hopen hcloses => absurd hcloses hopen,
        fun hmerges => hmerges.2.2 hnone⟩
    · obtain ⟨hchunks, htext, -⟩ := start_state_fields blocks
      have htold : Told (document blocks) chunk_overlap 0 0 (start_state blocks) := by
        refine ⟨?_, fun hm => absurd hm (Nat.lt_irrefl 0), fun hm => absurd hm (Nat.lt_irrefl 0)⟩
        rw [htext]
        exact List.nil_prefix
      obtain ⟨hclosed, hunmerged, -⟩ := right_run hpos (List.nil_append _) (tracked_start chunk_overlap blocks)
        htold (chunk_text_blocks_eq generate_chunk_id blocks chunk_size chunk_overlap).symm
        (by rw [hchunks]; exact List.nil_prefix) hright
      exact ⟨hclosed, hunmerged⟩
  · exact well_cut_right

def block_of (page : Int) (letter : Char) (count : Nat) : PageBlock :=
  ⟨page, String.ofList (List.replicate count letter), [0, 0, 1, 1], "text"⟩

def two_blocks : List PageBlock := [block_of 1 'a' 50, block_of 1 'b' 50]

/-- A chunk of 50 characters, shorter than the overlap of 60, is closed. The
next chunk starts 10 characters before the document. -/
theorem short_chunk_starts_below_zero :
    (chunk_text_blocks (fun _ => "ck") two_blocks 100 (60 : Nat)).map DocumentChunk.start_char = [0, -10] ∧
      ¬OffsetsRight (document two_blocks) 60 (chunk_text_blocks (fun _ => "ck") two_blocks 100 (60 : Nat)) := by
  have hstarts : (chunk_text_blocks (fun _ => "ck") two_blocks 100 (60 : Nat)).map DocumentChunk.start_char =
      [0, -10] := by decide +kernel
  refine ⟨hstarts, fun h => ?_⟩
  generalize chunk_text_blocks (fun _ => "ck") two_blocks 100 (60 : Nat) = chunks at hstarts h
  have hin : (-10 : Int) ∈ chunks.map DocumentChunk.start_char := by
    rw [hstarts]
    decide
  obtain ⟨chunk, hchunk, hstart⟩ := List.mem_map.1 hin
  have hzero := (h.points chunk hchunk).from_zero
  omega

end bid_evaluation.offset_laws
