-- `parse_file_bytes` of `document_parser.py`: the blocks of a file are chunked,
-- and each chunk becomes a dict with one page and one position.
import BidEvaluation.DocumentParser

open dict_lib bid_evaluation.values bid_evaluation.document_parsing

namespace bid_evaluation.file_chunks

def CHUNK_SIZE : Int := 800

def CHUNK_OVERLAP : Int := 150

/-- What goes into the dicts beside the chunks. -/
structure ChunkSource where
  document_id : String
  parser_name : String
  parser_version : String
  content_source : String

-- `chunk_hash` stands for `_chunk_hash`, a prefix of the digest of a text.
variable (chunk_hash : String → String)

def position_of (chunk : DocumentChunk) : PyDict :=
  [("page", .int chunk.page), ("bbox", .list (chunk.bbox.map .float)), ("start", .int chunk.start_char),
    ("end", .int chunk.end_char)]

def chunk_dict (source : ChunkSource) (chunk : DocumentChunk) : PyDict :=
  [("chunk_id", .str chunk.chunk_id), ("document_id", .str source.document_id),
    ("pages", .list [.int chunk.page]), ("positions", .list [.dict (position_of chunk)]),
    ("section", .str (chunk.heading_path.headD "content")),
    ("heading_path", .list (chunk.heading_path.map .str)), ("chunk_type", .str chunk.chunk_type),
    ("parser", .str source.parser_name), ("parser_version", .str source.parser_version),
    ("content_source", .str source.content_source), ("text", .str chunk.text),
    ("chunk_hash", .str (chunk_hash chunk.text))]

/-- The loop over the chunks of a file. -/
def chunk_dicts (source : ChunkSource) (doc_chunks : List DocumentChunk) : List PyDict :=
  doc_chunks.map (chunk_dict chunk_hash source)

/-- The page blocks that the readers find in the bytes of a file. -/
structure FileReaders (β : Type) where
  pdf : β → Except PyErr (List PageBlock)
  docx : β → Except PyErr (List PageBlock)
  plain_text : β → Except PyErr (List PageBlock)

/-- The reader and the source's name that go with the ending of a name. -/
def reader_of {β : Type} (readers : FileReaders β) (filename : String) :
    (β → Except PyErr (List PageBlock)) × String :=
  let lower := filename.toLower
  if lower.endsWith ".pdf" then (readers.pdf, "pdf_local")
  else if lower.endsWith ".docx" || lower.endsWith ".doc" then (readers.docx, "docx_local")
  else if lower.endsWith ".txt" || lower.endsWith ".md" || lower.endsWith ".csv" then
    (readers.plain_text, "text_local")
  else (readers.plain_text, "fallback_local")

/-- A file without blocks has no chunks. -/
def parse_file_bytes {β : Type} (generate_chunk_id : Nat → String) (readers : FileReaders β) (file_bytes : β)
    (filename document_id parser_name parser_version : String) : Except PyErr (List PyDict) := do
  let reader := reader_of readers filename
  let blocks ← reader.1 file_bytes
  let doc_chunks := chunk_text_blocks generate_chunk_id blocks CHUNK_SIZE CHUNK_OVERLAP
  pure (chunk_dicts chunk_hash ⟨document_id, parser_name, parser_version, reader.2⟩ doc_chunks)

end bid_evaluation.file_chunks
