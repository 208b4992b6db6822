-- The law of chunk pages. A chunk has one page, so a text of another page
-- that comes into it is not on record.
import BidEvaluation.ChunkSteps
import BidEvaluation.FileChunks

open occurrences windows dict_lib bid_evaluation.values bid_evaluation.document_parsing
  bid_evaluation.chunk_laws bid_evaluation.chunk_steps bid_evaluation.file_chunks

namespace bid_evaluation.page_laws

variable {generate_chunk_id : Nat → String} {chunk_size chunk_overlap : Int} {overlap : Nat} {s : Chunking}
  {block : PageBlock} {blocks rest : List PageBlock}

/-! ## Letters with their pages -/

/-- A character and the page it was read from. The newline between two texts
is from no page. -/
abbrev Letter := Char × Option Int

def blank (letter : Letter) : Bool := is_space letter.1

def newline : Letter := ('\n', none)

def letters_of (block : PageBlock) : List Letter :=
  (strip block.text).toList.map fun c => (c, some block.page)

/-- The letters of the chunks and of the current text. -/
structure Trace where
  chunks : List (List Letter)
  current : List Letter

def trace_join (block : PageBlock) (t : Trace) : Trace :=
  { t with
    current := if t.current = [] then letters_of block else t.current ++ [newline] ++ letters_of block }

def trace_carried (chunk_overlap : Int) (letters : List Letter) : List Letter :=
  if letters.length > chunk_overlap then
    letters.drop (if -chunk_overlap < 0 then (letters.length + -chunk_overlap).toNat else (-chunk_overlap).toNat)
  else []

def trace_close (chunk_overlap : Int) (t : Trace) : Trace :=
  ⟨t.chunks ++ [trim blank t.current], trace_carried chunk_overlap t.current⟩

/-- One turn of the loop. A chunk is closed where the loop closes it. -/
def trace_block (chunk_size chunk_overlap : Int) (s : Chunking) (t : Trace) (block : PageBlock) : Trace :=
  if strip block.text = "" then t
  else if is_full chunk_size s (strip block.text) then trace_join block (trace_close chunk_overlap t)
  else trace_join block t

def trace_run (generate_chunk_id : Nat → String) (chunk_size chunk_overlap : Int) :
    Chunking → Trace → List PageBlock → Trace
  | _, t, [] => t
  | s, t, block :: rest => trace_run generate_chunk_id chunk_size chunk_overlap
      (add_block generate_chunk_id chunk_size chunk_overlap s block)
      (trace_block chunk_size chunk_overlap s t block) rest

theorem trace_run_cons {t : Trace} : trace_run generate_chunk_id chunk_size chunk_overlap s t (block :: rest) =
    trace_run generate_chunk_id chunk_size chunk_overlap
      (add_block generate_chunk_id chunk_size chunk_overlap s block)
      (trace_block chunk_size chunk_overlap s t block) rest := by
  rw [trace_run]

def trace_last (s : Chunking) (t : Trace) : List (List Letter) :=
  if strip s.current_text = "" then t.chunks
  else if (strip s.current_text).length < MIN_CHUNK_SIZE then
    match t.chunks.getLast? with
    | none => t.chunks ++ [trim blank t.current]
    | some last => t.chunks.dropLast ++ [last ++ [newline] ++ trim blank t.current]
  else t.chunks ++ [trim blank t.current]

/-- The letters of each chunk. -/
def chunk_letters (generate_chunk_id : Nat → String) (blocks : List PageBlock)
    (chunk_size chunk_overlap : Int) : List (List Letter) :=
  trace_last (looped generate_chunk_id chunk_size chunk_overlap (start_state blocks) blocks)
    (trace_run generate_chunk_id chunk_size chunk_overlap (start_state blocks) ⟨[], []⟩ blocks)

/-! ## The letters are those of the texts -/

variable {t : Trace} {letters : List Letter}

theorem trim_letters (letters : List Letter) :
    (trim blank letters).map Prod.fst = trim is_space (letters.map Prod.fst) := by
  unfold trim List.rdropWhile
  rw [List.dropWhile_map, ← List.map_reverse, List.dropWhile_map, ← List.map_reverse]
  rfl

theorem letters_of_text (block : PageBlock) : (letters_of block).map Prod.fst = (strip block.text).toList := by
  unfold letters_of
  rw [List.map_map]
  exact List.map_id _

theorem letters_of_some (h : strip block.text ≠ "") : letters_of block ≠ [] := by
  intro hnil
  have htext := letters_of_text block
  rw [hnil] at htext
  exact toList_ne_nil h htext.symm

/-- Without their pages the letters are the texts. -/
structure Agrees (s : Chunking) (t : Trace) : Prop where
  current : t.current.map Prod.fst = s.current_text.toList
  chunks : t.chunks.map (List.map Prod.fst) = texts s.chunks

theorem Agrees.length (h : Agrees s t) : t.current.length = s.current_text.length := by
  rw [← String.length_toList, ← h.current, List.length_map]

theorem Agrees.empty_iff (h : Agrees s t) : t.current = [] ↔ s.current_text = "" := by
  rw [← List.map_eq_nil_iff (f := Prod.fst), h.current, String.toList_eq_nil_iff]

theorem Agrees.joined (h : Agrees s t) (block : PageBlock) :
    Agrees (join_text block (strip block.text) s) (trace_join block t) := by
  refine ⟨?_, ?_⟩
  · unfold trace_join
    dsimp only
    by_cases hempty : s.current_text = ""
    · rw [if_pos (h.empty_iff.2 hempty), join_text_none _ hempty, letters_of_text]
    · rw [if_neg fun hnil => hempty (h.empty_iff.1 hnil), join_text_some block _ hempty, List.map_append,
        List.map_append, h.current, letters_of_text]
      rfl
  · rw [join_text_chunks]
    exact h.chunks

theorem Agrees.closed (h : Agrees s t) (block : PageBlock) :
    Agrees (close_chunk generate_chunk_id chunk_overlap block s) (trace_close chunk_overlap t) := by
  refine ⟨?_, ?_⟩
  · change (trace_carried chunk_overlap t.current).map Prod.fst = (carried chunk_overlap s).toList
    unfold trace_carried carried slice_from
    rw [h.length]
    split
    · rw [String.toList_ofList, List.map_drop, h.current]
    · rfl
  · change (t.chunks ++ [trim blank t.current]).map _ = texts (s.chunks ++ [_])
    rw [texts_concat, List.map_append, h.chunks, List.map_singleton, trim_letters, h.current, ← toList_strip]
    rfl

theorem Agrees.step (h : Agrees s t) (block : PageBlock) :
    Agrees (add_block generate_chunk_id chunk_size chunk_overlap s block)
      (trace_block chunk_size chunk_overlap s t block) := by
  unfold add_block trace_block
  dsimp only
  split
  · exact h
  · split
    · exact (h.closed block).joined block
    · exact h.joined block

theorem Agrees.run (h : Agrees s t) (rest : List PageBlock) :
    Agrees (looped generate_chunk_id chunk_size chunk_overlap s rest)
      (trace_run generate_chunk_id chunk_size chunk_overlap s t rest) := by
  induction rest generalizing s t with
  | nil => exact h
  | cons block rest ih =>
    rw [looped_cons, trace_run_cons]
    exact ih (h.step block)

theorem Agrees.last (h : Agrees s t) :
    (trace_last s t).map (List.map Prod.fst) = texts (close_last generate_chunk_id s) := by
  have hown : (t.chunks ++ [trim blank t.current]).map (List.map Prod.fst) =
      texts (s.chunks ++ [current_chunk generate_chunk_id s]) := by
    rw [texts_concat, List.map_append, h.chunks, List.map_singleton, trim_letters, h.current, ← toList_strip]
    rfl
  unfold trace_last
  by_cases hblank : strip s.current_text = ""
  · rw [if_pos hblank, close_last_blank hblank]
    exact h.chunks
  · rw [if_neg hblank]
    by_cases hmerges : merges s
    · obtain ⟨front, last, hsplit⟩ := (List.eq_nil_or_concat' s.chunks).resolve_left hmerges.2.2
      have hchunks := h.chunks
      rw [hsplit, texts_concat] at hchunks
      obtain ⟨traces, rest, htraces, hfront, hrest⟩ := List.map_eq_append_iff.1 hchunks
      obtain ⟨final, rfl, hfinal⟩ := List.map_eq_singleton_iff.1 hrest
      rw [if_pos hmerges.2.1, htraces, List.getLast?_concat, close_last_merged hmerges hsplit, texts_concat]
      dsimp only
      rw [List.dropLast_concat, List.map_append, hfront, List.map_singleton, List.map_append, List.map_append,
        hfinal, trim_letters, h.current, ← toList_strip]
      unfold merged_chunk
      rw [toList_join]
      rfl
    · rw [close_last_own hblank hmerges, ← hown]
      split
      · rename_i hshort
        have hnone : s.chunks = [] := by
          by_contra hchunks
          exact hmerges ⟨hblank, hshort, hchunks⟩
        have htraces : t.chunks = [] := by
          have hchunks := h.chunks
          rw [hnone] at hchunks
          exact List.map_eq_nil_iff.1 hchunks
        rw [htraces]
        rfl
      · rfl

theorem agrees_start (blocks : List PageBlock) : Agrees (start_state blocks) ⟨[], []⟩ := by
  obtain ⟨hchunks, htext, -⟩ := start_state_fields blocks
  refine ⟨?_, ?_⟩
  · rw [htext]
    rfl
  · rw [hchunks]
    rfl

/-- The letters of the chunks are the letters of their texts. -/
theorem chunk_letters_texts (generate_chunk_id : Nat → String) (blocks : List PageBlock)
    (chunk_size chunk_overlap : Int) :
    (chunk_letters generate_chunk_id blocks chunk_size chunk_overlap).map (List.map Prod.fst) =
      texts (chunk_text_blocks generate_chunk_id blocks chunk_size chunk_overlap) := by
  rw [chunk_text_blocks_eq]
  exact ((agrees_start blocks).run blocks).last

/-! ## One page -/

/-- All letters are from the page of the chunk. -/
def FromPage (chunk : DocumentChunk) (letters : List Letter) : Prop :=
  ∀ c page, (c, some page) ∈ letters → page = chunk.page

/-- The page of each letter is in the pages and in the positions of the chunk. -/
def RecordsPages (chunk : PyDict) (letters : List Letter) : Prop :=
  ∀ c page, (c, some page) ∈ letters →
    (∃ pages, chunk.get "pages" = .list pages ∧ .int page ∈ pages) ∧
    ∃ positions, chunk.get "positions" = .list positions ∧
      ∃ position : PyDict, .dict position ∈ positions ∧ position.get "page" = .int page

theorem records_iff (chunk_hash : String → String) (source : ChunkSource) (chunk : DocumentChunk) :
    RecordsPages (chunk_dict chunk_hash source chunk) letters ↔ FromPage chunk letters := by
  have hpages : (chunk_dict chunk_hash source chunk).get "pages" = .list [.int chunk.page] := rfl
  have hpositions : (chunk_dict chunk_hash source chunk).get "positions" =
    .list [.dict (position_of chunk)] := rfl
  have hpage : (position_of chunk).get "page" = .int chunk.page := rfl
  constructor
  · intro h c page hin
    obtain ⟨⟨pages, hget, hpage⟩, -⟩ := h c page hin
    rw [hpages] at hget
    cases hget
    cases List.mem_singleton.1 hpage
    rfl
  · intro h c page hin
    cases h c page hin
    exact ⟨⟨_, hpages, List.mem_singleton.2 rfl⟩, _, hpositions, _, List.mem_singleton.2 rfl, hpage⟩

/-- A block that is put behind text is from the page of that text. -/
def SamePage (chunk_size : Int) (overlap : Nat) (s : Chunking) (block : PageBlock) : Prop :=
  strip block.text ≠ "" → s.current_text ≠ "" →
    (closes chunk_size s block → overlap < s.current_text.length) → block.page = s.current_page

/-- No text is put behind that of another page, in a chunk or at the end. -/
structure PagesKept (generate_chunk_id : Nat → String) (chunk_size : Int) (overlap : Nat)
    (blocks : List PageBlock) : Prop where
  same_page : AtEachBlock generate_chunk_id chunk_size overlap (SamePage chunk_size overlap)
    (start_state blocks) blocks
  same_rest : merges (looped generate_chunk_id chunk_size overlap (start_state blocks) blocks) →
    ∀ last ∈ (looped generate_chunk_id chunk_size overlap (start_state blocks) blocks).chunks.getLast?,
      (looped generate_chunk_id chunk_size overlap (start_state blocks) blocks).current_page = last.page

/-! ## Kept pages -/

/-- The current text is from the current page, up to its last letter. -/
structure OnPage (s : Chunking) (t : Trace) : Prop where
  pages : ∀ c page, (c, some page) ∈ t.current → page = s.current_page
  last : ∀ letter ∈ t.current.getLast?, letter.2 = some s.current_page ∧ blank letter = false

theorem letters_of_page {c : Char} {page : Int} (h : (c, some page) ∈ letters_of block) :
    page = block.page := by
  unfold letters_of at h
  obtain ⟨d, -, heq⟩ := List.mem_map.1 h
  cases heq
  rfl

theorem letters_of_last (h : strip block.text ≠ "") :
    ∃ letter, (letters_of block).getLast? = some letter ∧ letter.2 = some block.page ∧ blank letter = false := by
  have hsolid := solid_strip h
  unfold letters_of
  generalize (strip block.text).toList = letters at hsolid
  rw [List.getLast?_map, List.getLast?_eq_some_getLast hsolid.nonempty]
  exact ⟨_, rfl, rfl, hsolid.last⟩

theorem not_newline {c : Char} {page : Int} : (c, some page) ≠ newline := by
  intro h
  cases h

/-- A block of the page of the text goes behind it. -/
theorem OnPage.joined (h : OnPage s t) (hagrees : Agrees s t) (hsome : strip block.text ≠ "")
    (hpage : s.current_text ≠ "" → block.page = s.current_page) :
    OnPage (join_text block (strip block.text) s) (trace_join block t) := by
  obtain ⟨letter, hlast, hletter⟩ := letters_of_last hsome
  by_cases hempty : s.current_text = ""
  · have hnone := hagrees.empty_iff.2 hempty
    have hcurrent : (join_text block (strip block.text) s).current_page = block.page := by
      unfold join_text
      rw [if_neg (not_not.2 hempty)]
    refine ⟨?_, ?_⟩ <;> unfold trace_join <;> rw [if_pos hnone, hcurrent] <;> dsimp only
    · exact fun c page hin => letters_of_page hin
    · rw [hlast]
      exact fun other hother => by cases hother; exact hletter
  · have hsome' : t.current ≠ [] := fun hnil => hempty (hagrees.empty_iff.1 hnil)
    have hcurrent : (join_text block (strip block.text) s).current_page = s.current_page := by
      unfold join_text
      rw [if_pos hempty]
    have hsame := hpage hempty
    refine ⟨?_, ?_⟩ <;> unfold trace_join <;> rw [if_neg hsome', hcurrent] <;> dsimp only
    · intro c page hin
      rcases List.mem_append.1 hin with hin | hin
      · rcases List.mem_append.1 hin with hin | hin
        · exact h.pages c page hin
        · exact absurd (List.mem_singleton.1 hin) not_newline
      · rw [← hsame]
        exact letters_of_page hin
    · rw [List.getLast?_append_of_ne_nil _ (letters_of_some hsome), hlast, ← hsame]
      exact fun other hother => by cases hother; exact hletter

/-- What is carried on is an end of the text. -/
theorem trace_carried_suffix (chunk_overlap : Int) (letters : List Letter) :
    trace_carried chunk_overlap letters <:+ letters := by
  unfold trace_carried
  split
  · exact List.drop_suffix _ _
  · exact List.nil_suffix

theorem OnPage.closed (h : OnPage s t) (hpage : trace_carried chunk_overlap t.current ≠ [] →
    block.page = s.current_page) :
    OnPage (close_chunk generate_chunk_id chunk_overlap block s) (trace_close chunk_overlap t) := by
  have hsuffix := trace_carried_suffix chunk_overlap t.current
  have hcurrent : (close_chunk generate_chunk_id chunk_overlap block s).current_page = block.page := rfl
  refine ⟨?_, ?_⟩ <;> unfold trace_close <;> rw [hcurrent]
  · intro c page hin
    rw [hpage (List.ne_nil_of_mem hin)]
    exact h.pages c page (hsuffix.subset hin)
  · intro letter hin
    have hsome : trace_carried chunk_overlap t.current ≠ [] := by
      intro hnil
      rw [hnil] at hin
      cases hin
    obtain ⟨front, hfront⟩ := hsuffix
    rw [hpage hsome]
    apply h.last
    rw [← hfront, List.getLast?_append_of_ne_nil _ hsome]
    exact hin

theorem carried_long (hagrees : Agrees s t) (h : trace_carried overlap t.current ≠ []) :
    overlap < s.current_text.length := by
  unfold trace_carried at h
  rw [hagrees.length] at h
  split at h
  · omega
  · exact absurd rfl h

theorem OnPage.step (h : OnPage s t) (hagrees : Agrees s t) (hpage : SamePage chunk_size overlap s block) :
    OnPage (add_block generate_chunk_id chunk_size overlap s block)
      (trace_block chunk_size overlap s t block) := by
  unfold trace_block
  by_cases hblank : strip block.text = ""
  · rw [if_pos hblank, add_block_blank hblank]
    exact h
  · rw [if_neg hblank]
    by_cases hcloses : closes chunk_size s block
    · rw [if_pos hcloses.2, add_block_closed hcloses]
      have hclosed : OnPage (close_chunk generate_chunk_id overlap block s) (trace_close overlap t) :=
        h.closed fun hcarried => hpage hblank (closes_some hcloses) fun _ => carried_long hagrees hcarried
      exact hclosed.joined (hagrees.closed block) hblank fun _ => rfl
    · rw [if_neg fun hfull => hcloses ⟨hblank, hfull⟩, add_block_open hblank hcloses]
      exact h.joined hagrees hblank fun hsome => hpage hblank hsome fun hcut => absurd hcut hcloses

theorem from_page_closed (h : OnPage s t) : FromPage (current_chunk generate_chunk_id s) (trim blank t.current) :=
  fun c page hin => h.pages c page (of_mem_trim hin)

/-- The trace after a block has one more chunk when the block closes it. -/
theorem trace_block_chunks (hclosed : closes chunk_size s block) :
    (trace_block chunk_size chunk_overlap s t block).chunks = t.chunks ++ [trim blank t.current] := by
  unfold trace_block
  rw [if_neg hclosed.1, if_pos hclosed.2]
  rfl

theorem trace_block_open (hopen : ¬closes chunk_size s block) :
    (trace_block chunk_size chunk_overlap s t block).chunks = t.chunks := by
  unfold trace_block
  split
  · rfl
  · rename_i hsome
    rw [if_neg fun hfull => hopen ⟨hsome, hfull⟩]
    rfl

theorem add_block_open_chunks (hopen : ¬closes chunk_size s block) :
    (add_block generate_chunk_id chunk_size chunk_overlap s block).chunks = s.chunks := by
  by_cases hblank : strip block.text = ""
  · rw [add_block_blank hblank]
  · rw [add_block_open hblank hopen, join_text_chunks]

theorem kept_pages_run (h : OnPage s t) (hagrees : Agrees s t)
    (hchunks : List.Forall₂ FromPage s.chunks t.chunks)
    (hsame : AtEachBlock generate_chunk_id chunk_size overlap (SamePage chunk_size overlap) s rest) :
    OnPage (looped generate_chunk_id chunk_size overlap s rest)
        (trace_run generate_chunk_id chunk_size overlap s t rest) ∧
      List.Forall₂ FromPage (looped generate_chunk_id chunk_size overlap s rest).chunks
        (trace_run generate_chunk_id chunk_size overlap s t rest).chunks := by
  induction rest generalizing s t with
  | nil => exact ⟨h, hchunks⟩
  | cons block rest ih =>
    obtain ⟨hfirst, hrest⟩ := hsame
    rw [looped_cons, trace_run_cons]
    apply ih (h.step hagrees hfirst) (hagrees.step block) ?_ hrest
    by_cases hcloses : closes chunk_size s block
    · rw [closed_chunks hcloses, trace_block_chunks hcloses]
      exact List.rel_append hchunks (.cons (from_page_closed h) .nil)
    · rw [add_block_open_chunks hcloses, trace_block_open hcloses]
      exact hchunks

theorem split_last {R : DocumentChunk → List Letter → Prop} {front : List DocumentChunk} {last : DocumentChunk}
    {traces : List (List Letter)} (h : List.Forall₂ R (front ++ [last]) traces) :
    ∃ before final, traces = before ++ [final] ∧ List.Forall₂ R front before ∧ R last final := by
  have hreverse := List.forall₂_reverse_iff.2 h
  rw [List.reverse_append] at hreverse
  obtain ⟨final, rest, hlast, hfront, hsplit⟩ := List.forall₂_cons_left_iff.1 hreverse
  refine ⟨rest.reverse, final, ?_, ?_, hlast⟩
  · rw [← List.reverse_reverse traces, hsplit, List.reverse_cons]
  · rw [← List.forall₂_reverse_iff, List.reverse_reverse]
    exact hfront

theorem trace_last_merged {before : List (List Letter)} {final : List Letter} (h : merges s)
    (htraces : t.chunks = before ++ [final]) :
    trace_last s t = before ++ [final ++ [newline] ++ trim blank t.current] := by
  unfold trace_last
  rw [if_neg h.1, if_pos h.2.1, htraces, List.getLast?_concat]
  dsimp only
  rw [List.dropLast_concat]

theorem trace_last_own (hagrees : Agrees s t) (hsome : strip s.current_text ≠ "") (h : ¬merges s) :
    trace_last s t = t.chunks ++ [trim blank t.current] := by
  unfold trace_last
  rw [if_neg hsome]
  split
  · rename_i hshort
    have hnone : t.chunks = [] := by
      by_contra htraces
      refine h ⟨hsome, hshort, fun hchunks => htraces ?_⟩
      have hagree := hagrees.chunks
      rw [hchunks] at hagree
      exact List.map_eq_nil_iff.1 hagree
    rw [hnone]
    rfl
  · rfl

theorem kept_pages_record (h : PagesKept generate_chunk_id chunk_size overlap blocks) :
    List.Forall₂ FromPage (chunk_text_blocks generate_chunk_id blocks chunk_size overlap)
      (chunk_letters generate_chunk_id blocks chunk_size overlap) := by
  have hagrees := agrees_start blocks
  have hstart : OnPage (start_state blocks) ⟨[], []⟩ :=
    ⟨fun c page hin => absurd hin List.not_mem_nil, fun letter hin => by cases hin⟩
  have hnone : List.Forall₂ FromPage (start_state blocks).chunks [] := by
    rw [(start_state_fields blocks).1]
    exact .nil
  obtain ⟨hpage, hchunks⟩ := kept_pages_run hstart hagrees hnone h.same_page
  have hend : Agrees (looped generate_chunk_id chunk_size overlap (start_state blocks) blocks)
      (trace_run generate_chunk_id chunk_size overlap (start_state blocks) ⟨[], []⟩ blocks) :=
    hagrees.run blocks
  have hrest := h.same_rest
  rw [chunk_text_blocks_eq]
  unfold chunk_letters
  generalize looped generate_chunk_id chunk_size overlap (start_state blocks) blocks = s' at *
  generalize trace_run generate_chunk_id chunk_size overlap (start_state blocks) ⟨[], []⟩ blocks = t' at *
  by_cases hblank : strip s'.current_text = ""
  · unfold trace_last
    rw [close_last_blank hblank, if_pos hblank]
    exact hchunks
  · by_cases hmerges : merges s'
    · obtain ⟨front, last, hsplit⟩ := (List.eq_nil_or_concat' s'.chunks).resolve_left hmerges.2.2
      have hsame := hrest hmerges last (by rw [hsplit, List.getLast?_concat]; rfl)
      rw [hsplit] at hchunks
      obtain ⟨before, final, htraces, hfront, hlast⟩ := split_last hchunks
      rw [close_last_merged hmerges hsplit, trace_last_merged hmerges htraces]
      refine List.rel_append hfront (.cons ?_ .nil)
      intro c page hin
      rcases List.mem_append.1 hin with hin | hin
      · rcases List.mem_append.1 hin with hin | hin
        · exact hlast c page hin
        · exact absurd (List.mem_singleton.1 hin) not_newline
      · exact (hpage.pages c page (of_mem_trim hin)).trans hsame
    · rw [close_last_own hblank hmerges, trace_last_own hend hblank hmerges]
      exact List.rel_append hchunks (.cons (from_page_closed hpage) .nil)

/-! ## Recorded pages -/

/-- Letters that no trim takes away are from two pages. -/
def TwoPages (letters : List Letter) : Prop :=
  ∃ first ∈ letters, ∃ second ∈ letters, blank first = false ∧ blank second = false ∧
    ∃ page other, first.2 = some page ∧ second.2 = some other ∧ page ≠ other

theorem TwoPages.mono {more : List Letter} (h : TwoPages letters)
    (hsub : ∀ letter ∈ letters, blank letter = false → letter ∈ more) : TwoPages more := by
  obtain ⟨first, hfirst, second, hsecond, hsolid, hsolid', hpages⟩ := h
  exact ⟨first, hsub first hfirst hsolid, second, hsub second hsecond hsolid', hsolid, hsolid', hpages⟩

theorem not_from_two_pages {chunk : DocumentChunk} (h : FromPage chunk letters) : ¬TwoPages letters := by
  rintro ⟨⟨c, -⟩, hfirst, ⟨d, -⟩, hsecond, -, -, page, other, rfl, rfl, hne⟩
  exact hne ((h c page hfirst).trans (h d other hsecond).symm)

/-- The letters of a chunk stay in a chunk up to the end. -/
theorem chunk_stays (generate_chunk_id : Nat → String) (chunk_size chunk_overlap : Int) (s : Chunking)
    (h : letters ∈ t.chunks) (rest : List PageBlock) :
    ∃ final ∈ trace_last (looped generate_chunk_id chunk_size chunk_overlap s rest)
        (trace_run generate_chunk_id chunk_size chunk_overlap s t rest), letters ⊆ final := by
  induction rest generalizing s t with
  | nil =>
    change ∃ final ∈ trace_last s t, _
    unfold trace_last
    split
    · exact ⟨letters, h, List.Subset.refl _⟩
    · split
      · rcases List.eq_nil_or_concat' t.chunks with hnone | ⟨front, last, hsplit⟩
        · rw [hnone] at h
          cases h
        · rw [hsplit, List.getLast?_concat, List.dropLast_concat]
          rw [hsplit] at h
          rcases List.mem_append.1 h with hfront | hlast
          · exact ⟨letters, List.mem_append_left _ hfront, List.Subset.refl _⟩
          · rw [List.mem_singleton.1 hlast]
            refine ⟨_, List.mem_append_right _ (List.mem_singleton.2 rfl), ?_⟩
            rw [List.append_assoc]
            exact List.subset_append_left _ _
      · exact ⟨letters, List.mem_append_left _ h, List.Subset.refl _⟩
  | cons block rest ih =>
    rw [looped_cons, trace_run_cons]
    apply ih
    by_cases hcloses : closes chunk_size s block
    · rw [trace_block_chunks hcloses]
      exact List.mem_append_left _ h
    · rwa [trace_block_open hcloses]

/-- Two pages in the current text are two pages in a chunk in the end. -/
theorem two_pages_stay (chunk_size chunk_overlap : Int) (hagrees : Agrees s t) (h : TwoPages t.current) (rest : List PageBlock) :
    ∃ final ∈ trace_last (looped generate_chunk_id chunk_size chunk_overlap s rest)
        (trace_run generate_chunk_id chunk_size chunk_overlap s t rest), TwoPages final := by
  have htrim : TwoPages (trim blank t.current) := h.mono fun letter hin hsolid => mem_trim hin hsolid
  have hsome : t.current ≠ [] := by
    obtain ⟨first, hfirst, -⟩ := h
    exact List.ne_nil_of_mem hfirst
  induction rest generalizing s t with
  | nil =>
    change ∃ final ∈ trace_last s t, _
    have hlong : strip s.current_text ≠ "" := by
      intro hblank
      obtain ⟨first, hfirst, -⟩ := htrim
      have hletters := congrArg String.toList hblank
      rw [toList_strip, ← hagrees.current, ← trim_letters] at hletters
      exact List.ne_nil_of_mem hfirst (List.map_eq_nil_iff.1 hletters)
    by_cases hmerges : merges s
    · rcases List.eq_nil_or_concat' t.chunks with hnone | ⟨front, last, hsplit⟩
      · have hchunks := hagrees.chunks
        rw [hnone] at hchunks
        exact absurd (List.map_eq_nil_iff.1 hchunks.symm) hmerges.2.2
      · rw [trace_last_merged hmerges hsplit]
        exact ⟨_, List.mem_append_right _ (List.mem_singleton.2 rfl),
          htrim.mono fun letter hin _ => List.mem_append_right _ hin⟩
    · rw [trace_last_own hagrees hlong hmerges]
      exact ⟨_, List.mem_append_right _ (List.mem_singleton.2 rfl), htrim⟩
  | cons block rest ih =>
    rw [looped_cons, trace_run_cons]
    by_cases hcloses : closes chunk_size s block
    · have hin : trim blank t.current ∈ (trace_block chunk_size chunk_overlap s t block).chunks := by
        rw [trace_block_chunks hcloses]
        exact List.mem_append_right _ (List.mem_singleton.2 rfl)
      obtain ⟨final, hfinal, hsub⟩ := chunk_stays generate_chunk_id chunk_size chunk_overlap
        (add_block generate_chunk_id chunk_size chunk_overlap s block) hin rest
      exact ⟨final, hfinal, htrim.mono fun letter hin _ => hsub hin⟩
    · have hsub : t.current ⊆ (trace_block chunk_size chunk_overlap s t block).current := by
        unfold trace_block
        split
        · exact List.Subset.refl _
        · rename_i hlong
          rw [if_neg fun hfull => hcloses ⟨hlong, hfull⟩]
          unfold trace_join
          rw [if_neg hsome, List.append_assoc]
          exact List.subset_append_left _ _
      have hnext := h.mono fun letter hin _ => hsub hin
      exact ih (hagrees.step block) hnext (hnext.mono fun letter hin hsolid => mem_trim hin hsolid)
        (fun hnil => hsome (List.subset_nil.1 (hnil ▸ hsub)))

/-- A block of another page behind text makes two pages. -/
theorem two_pages_of_other (h : OnPage s t) (hagrees : Agrees s t)
    (hother : ¬SamePage chunk_size overlap s block) :
    TwoPages (trace_block chunk_size overlap s t block).current := by
  unfold SamePage at hother
  simp only [Classical.not_imp] at hother
  obtain ⟨hsome, htext, hlong, hpage⟩ := hother
  obtain ⟨second, hsecond, hsecondpage, hsecondsolid⟩ := letters_of_last hsome
  have hin : second ∈ letters_of block := List.mem_of_getLast? hsecond
  -- The text before the block ends with a letter of the current page.
  have hbefore : ∀ letters : List Letter, letters <:+ t.current → letters ≠ [] →
      TwoPages (letters ++ [newline] ++ letters_of block) := by
    rintro letters ⟨front, hfront⟩ hletters
    have hlast := List.getLast?_eq_some_getLast hletters
    have hwhole : t.current.getLast? = some (letters.getLast hletters) := by
      rw [← hfront, List.getLast?_append_of_ne_nil _ hletters, hlast]
    obtain ⟨hfirstpage, hfirstsolid⟩ := h.last _ hwhole
    rw [List.append_assoc]
    exact ⟨_, List.mem_append_left _ (List.getLast_mem hletters), second,
      List.mem_append_right _ (List.mem_append_right _ hin), hfirstsolid, hsecondsolid,
      _, _, hfirstpage, hsecondpage, Ne.symm hpage⟩
  have hcurrent : t.current ≠ [] := fun hnil => htext (hagrees.empty_iff.1 hnil)
  unfold trace_block
  rw [if_neg hsome]
  by_cases hcloses : closes chunk_size s block
  · rw [if_pos hcloses.2]
    have hcarried : trace_carried overlap t.current ≠ [] := by
      have hlength := hlong hcloses
      rw [← hagrees.length] at hlength
      unfold trace_carried
      rw [if_pos (by exact_mod_cast hlength)]
      intro hnil
      have hcount := congrArg List.length hnil
      rw [List.length_drop, List.length_nil] at hcount
      split at hcount <;> omega
    unfold trace_join trace_close
    dsimp only
    rw [if_neg hcarried]
    exact hbefore _ (trace_carried_suffix _ _) hcarried
  · rw [if_neg fun hfull => hcloses ⟨hsome, hfull⟩]
    unfold trace_join
    dsimp only
    rw [if_neg hcurrent]
    exact hbefore _ (List.suffix_refl _) hcurrent

theorem recorded_run (h : OnPage s t) (hagrees : Agrees s t)
    (hrecorded : ∀ final ∈ trace_last (looped generate_chunk_id chunk_size overlap s rest)
      (trace_run generate_chunk_id chunk_size overlap s t rest), ¬TwoPages final) :
    AtEachBlock generate_chunk_id chunk_size overlap (SamePage chunk_size overlap) s rest ∧
      OnPage (looped generate_chunk_id chunk_size overlap s rest)
        (trace_run generate_chunk_id chunk_size overlap s t rest) := by
  induction rest generalizing s t with
  | nil => exact ⟨trivial, h⟩
  | cons block rest ih =>
    rw [looped_cons, trace_run_cons] at hrecorded ⊢
    have hnext : Agrees (add_block generate_chunk_id chunk_size overlap s block)
        (trace_block chunk_size overlap s t block) := hagrees.step block
    have hsame : SamePage chunk_size overlap s block := by
      by_contra hother
      obtain ⟨final, hfinal, htwo⟩ := two_pages_stay chunk_size overlap hnext
        (two_pages_of_other h hagrees hother) rest
      exact hrecorded final hfinal htwo
    obtain ⟨hrest, hend⟩ := ih (h.step hagrees hsame) hnext hrecorded
    exact ⟨⟨hsame, hrest⟩, hend⟩

theorem related_left {R : DocumentChunk → List Letter → Prop} {chunks : List DocumentChunk}
    {traces : List (List Letter)} (h : List.Forall₂ R chunks traces) (hin : letters ∈ traces) :
    ∃ chunk, R chunk letters := by
  induction h with
  | nil => cases hin
  | cons hfirst _ ih =>
    rcases List.mem_cons.1 hin with rfl | hin
    · exact ⟨_, hfirst⟩
    · exact ih hin

theorem recorded_pages_kept (h : List.Forall₂ FromPage
    (chunk_text_blocks generate_chunk_id blocks chunk_size overlap)
      (chunk_letters generate_chunk_id blocks chunk_size overlap)) :
    PagesKept generate_chunk_id chunk_size overlap blocks := by
  have hagrees := agrees_start blocks
  have hstart : OnPage (start_state blocks) ⟨[], []⟩ :=
    ⟨fun c page hin => absurd hin List.not_mem_nil, fun letter hin => by cases hin⟩
  have hrecorded : ∀ final ∈ chunk_letters generate_chunk_id blocks chunk_size overlap, ¬TwoPages final := by
    intro final hfinal
    obtain ⟨chunk, hfrom⟩ := related_left h hfinal
    exact not_from_two_pages hfrom
  obtain ⟨hsame, hpage⟩ := recorded_run hstart hagrees hrecorded
  have hend : Agrees (looped generate_chunk_id chunk_size overlap (start_state blocks) blocks)
      (trace_run generate_chunk_id chunk_size overlap (start_state blocks) ⟨[], []⟩ blocks) :=
    hagrees.run blocks
  refine ⟨hsame, ?_⟩
  rw [chunk_text_blocks_eq] at h
  unfold chunk_letters at h
  generalize looped generate_chunk_id chunk_size overlap (start_state blocks) blocks = s' at *
  generalize trace_run generate_chunk_id chunk_size overlap (start_state blocks) ⟨[], []⟩ blocks = t' at *
  intro hmerges last hlast
  obtain ⟨front, hsplit⟩ := List.getLast?_eq_some_iff.1 hlast
  rw [close_last_merged hmerges hsplit] at h
  obtain ⟨before, final, htraces, -, hfrom⟩ := split_last h
  have hcurrent : t'.current ≠ [] := by
    intro hnil
    have hblank := hend.empty_iff.1 hnil
    exact hmerges.1 (by rw [hblank]; decide)
  obtain ⟨hletter, hsolid⟩ := hpage.last _ (List.getLast?_eq_some_getLast hcurrent)
  rcases List.eq_nil_or_concat' t'.chunks with hnone | ⟨front', last', hsplit'⟩
  · have hchunks := hend.chunks
    rw [hnone] at hchunks
    exact absurd (List.map_eq_nil_iff.1 hchunks.symm) hmerges.2.2
  · rw [trace_last_merged hmerges hsplit'] at htraces
    obtain ⟨-, rfl⟩ := List.append_singleton_inj.1 htraces
    refine hfrom (t'.current.getLast hcurrent).1 s'.current_page (List.mem_append_right _ ?_)
    rw [← hletter]
    exact mem_trim (List.getLast_mem hcurrent) hsolid

/-! ## The law -/

/-- The letters are those of the chunks' texts, and the dicts have the pages
of all of them exactly when no text is put behind that of another page. -/
theorem pages_recorded_iff (generate_chunk_id : Nat → String) (chunk_hash : String → String)
    (source : ChunkSource) (blocks : List PageBlock) (chunk_size : Int) (chunk_overlap : Nat) :
    (chunk_letters generate_chunk_id blocks chunk_size chunk_overlap).map (List.map Prod.fst) =
        texts (chunk_text_blocks generate_chunk_id blocks chunk_size chunk_overlap) ∧
      (List.Forall₂ RecordsPages
          (chunk_dicts chunk_hash source (chunk_text_blocks generate_chunk_id blocks chunk_size chunk_overlap))
          (chunk_letters generate_chunk_id blocks chunk_size chunk_overlap) ↔
        PagesKept generate_chunk_id chunk_size chunk_overlap blocks) := by
  refine ⟨chunk_letters_texts generate_chunk_id blocks chunk_size chunk_overlap, ?_⟩
  have hrecords : (fun chunk letters => RecordsPages (chunk_dict chunk_hash source chunk) letters) =
      FromPage := by
    funext chunk letters
    exact propext (records_iff chunk_hash source chunk)
  unfold chunk_dicts
  rw [List.forall₂_map_left_iff, hrecords]
  exact ⟨recorded_pages_kept, kept_pages_record⟩

def local_source : ChunkSource := ⟨"doc_a", "local", "v1", "pdf_local"⟩

def page_block (page : Int) (text : String) : PageBlock := ⟨page, text, [0, 0, 1, 1], "text"⟩

def two_pages : List PageBlock := [page_block 1 "first", page_block 2 "second"]

/-- One chunk takes the blocks of both pages, and only the first is on record. -/
theorem second_page_is_not_recorded :
    (chunk_text_blocks (fun _ => "ck") two_pages 800 (150 : Nat)).map (fun chunk => (chunk.text, chunk.page)) =
        [("first\nsecond", 1)] ∧
      ¬List.Forall₂ RecordsPages
        (chunk_dicts (fun text => text) local_source
          (chunk_text_blocks (fun _ => "ck") two_pages 800 (150 : Nat)))
        (chunk_letters (fun _ => "ck") two_pages 800 (150 : Nat)) := by
  have hchunks : (chunk_text_blocks (fun _ => "ck") two_pages 800 (150 : Nat)).map
      (fun chunk => (chunk.text, chunk.page)) = [("first\nsecond", 1)] := by decide +kernel
  have hletters : chunk_letters (fun _ => "ck") two_pages 800 (150 : Nat) =
      [letters_of (page_block 1 "first") ++ [newline] ++ letters_of (page_block 2 "second")] := by
    decide +kernel
  refine ⟨hchunks, fun h => ?_⟩
  obtain ⟨chunk, hchunk, hpage⟩ := List.map_eq_singleton_iff.1 hchunks
  rw [hchunk, hletters] at h
  unfold chunk_dicts at h
  obtain ⟨hrecords, -⟩ := List.forall₂_cons.1 h
  have hfrom := (records_iff _ local_source chunk).1 hrecords
  have hsecond : (2 : Int) = chunk.page := hfrom 's' 2 (by decide)
  have hfirst : chunk.page = 1 := (Prod.ext_iff.1 hpage).2
  omega

end bid_evaluation.page_laws
