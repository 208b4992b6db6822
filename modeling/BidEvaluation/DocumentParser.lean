-- The chunking of `document_parser.py`: page blocks are joined until a chunk
-- is full, and the next chunk starts with the end of the last one.
import BidEvaluation.Values

open bid_evaluation.values

namespace bid_evaluation.document_parsing

structure PageBlock where
  page : Int
  text : String
  bbox : List Rat
  block_type : String

structure DocumentChunk where
  chunk_id : String
  text : String
  page : Int
  bbox : List Rat
  heading_path : List String
  chunk_type : String
  start_char : Int
  end_char : Int

def MIN_CHUNK_SIZE : Nat := 50

/-- `text[start:]`. A start below zero counts from the end. -/
def slice_from (text : String) (start : Int) : String :=
  String.ofList (text.toList.drop (if start < 0 then (text.length + start).toNat else start.toNat))

/-! ## Headings -/

/-- The title that `^(#{1,6})\s+(.+)` finds in a stripped line. -/
def heading_title (stripped : String) : Option String :=
  let hashes := stripped.toList.takeWhile (· = '#')
  let rest := stripped.toList.dropWhile (· = '#')
  let title := rest.dropWhile is_space
  if 1 ≤ hashes.length ∧ hashes.length ≤ 6 ∧ title.length < rest.length ∧ title ≠ [] then
    some (strip (String.ofList title))
  else none

/-- The loop over the first lines. A line that is no heading ends it when
there is none yet. -/
def heading_lines (headings : List String) : List String → List String
  | [] => headings
  | line :: rest =>
    match heading_title (strip line) with
    | some title => heading_lines (headings ++ [title]) rest
    | none =>
      if strip line ≠ "" ∧ headings = [] then [String.ofList ((strip line).toList.take 60)]
      else heading_lines headings rest

def extract_heading_path (text : String) : List String :=
  let lines := ((strip text).toList.splitOn '\n').map String.ofList
  match heading_lines [] (lines.take 5) with
  | [] => ["content"]
  | headings => headings

/-! ## Chunks -/

/-- The variables of the loop. -/
structure Chunking where
  chunks : List DocumentChunk
  current_text : String
  current_page : Int
  current_bbox : List Rat
  char_offset : Int

-- `generate_chunk_id` stands for the ids that `_generate_chunk_id` draws, first to last.
variable (generate_chunk_id : Nat → String)

/-- The current text as a chunk. -/
def current_chunk (s : Chunking) : DocumentChunk where
  chunk_id := generate_chunk_id s.chunks.length
  text := strip s.current_text
  page := s.current_page
  bbox := s.current_bbox
  heading_path := extract_heading_path s.current_text
  chunk_type := "text"
  start_char := s.char_offset
  end_char := s.char_offset + s.current_text.length

/-- Close the current chunk. Its last `chunk_overlap` characters go on, which
are all of them when `chunk_overlap` is 0. -/
def close_chunk (chunk_overlap : Int) (block : PageBlock) (s : Chunking) : Chunking where
  chunks := s.chunks ++ [current_chunk generate_chunk_id s]
  current_text :=
    if s.current_text.length > chunk_overlap then slice_from s.current_text (-chunk_overlap) else ""
  current_page := block.page
  current_bbox := block.bbox
  char_offset := s.char_offset + (s.current_text.length - chunk_overlap)

/-- Is the chunk full with this text? -/
def is_full (chunk_size : Int) (s : Chunking) (text : String) : Bool :=
  s.current_text.length + text.length + 1 > chunk_size ∧ s.current_text.length ≥ MIN_CHUNK_SIZE

def join_text (block : PageBlock) (text : String) (s : Chunking) : Chunking :=
  if s.current_text ≠ "" then { s with current_text := s.current_text ++ "\n" ++ text }
  else { s with current_text := text, current_page := block.page, current_bbox := block.bbox }

/-- One turn of the loop. -/
def add_block (chunk_size chunk_overlap : Int) (s : Chunking) (block : PageBlock) : Chunking :=
  let text := strip block.text
  if text = "" then s
  else if is_full chunk_size s text then
    join_text block text (close_chunk generate_chunk_id chunk_overlap block s)
  else join_text block text s

/-- What is left at the end is a chunk of its own, or goes to the last one
when it is short. -/
def close_last (s : Chunking) : List DocumentChunk :=
  let remainder := strip s.current_text
  if remainder = "" then s.chunks
  else if remainder.length < MIN_CHUNK_SIZE then
    match s.chunks.getLast? with
    | none => s.chunks ++ [current_chunk generate_chunk_id s]
    | some last =>
      s.chunks.dropLast ++ [{ last with
        text := last.text ++ "\n" ++ remainder
        end_char := s.char_offset + s.current_text.length }]
  else s.chunks ++ [current_chunk generate_chunk_id s]

def chunk_text_blocks (blocks : List PageBlock) (chunk_size chunk_overlap : Int) :
    List DocumentChunk :=
  match blocks with
  | [] => []
  | first :: _ =>
    close_last generate_chunk_id (blocks.foldl (add_block generate_chunk_id chunk_size chunk_overlap)
      ⟨[], "", first.page, first.bbox, 0⟩)

end bid_evaluation.document_parsing
