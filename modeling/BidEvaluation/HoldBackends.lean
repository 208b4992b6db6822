-- The release of a legal hold over any object storage: what the two backends
-- share, the S3 backend over its client, and the release in `store_ops.py`.
-- Here a call of the storage can raise, or answer that it did nothing.
import BidEvaluation.BlobFlags
import BidEvaluation.HoldSteps
import BidEvaluation.Lib.Twins

open dict_lib file_tree stepwise twins bid_evaluation.values bid_evaluation.object_storage
  bid_evaluation.hold_store

namespace bid_evaluation.hold_backends

variable {β σ α : Type}

/-! ## The backends -/

/-- `ObjectStorageBackend`, as far as a release uses it, over the objects `σ`.
`held` says that the blob is there and its hold is on. -/
structure ObjectStorageBackend (σ : Type) where
  release_legal_hold : Time → String → Prog σ PyErr Bool
  held : String → σ → Prop
  cleared : ∀ now storage_uri objects,
    (release_legal_hold now storage_uri).result objects = .ok true →
      ¬held storage_uri ((release_legal_hold now storage_uri).final objects)

/-- The client of S3. A put of a status that does not raise has set it. -/
structure S3Client (σ : Type) where
  put_object_legal_hold : List Char → List Char → String → Prog σ PyErr Unit
  /-- The status of the hold of an object that is there. -/
  legal_hold : List Char → List Char → σ → Option String
  answered : ∀ bucket key status objects,
    (put_object_legal_hold bucket key status).result objects = .ok () →
      legal_hold bucket key ((put_object_legal_hold bucket key status).final objects) = some status

/-- `S3ObjectStorage.release_legal_hold`. Whatever the client raises is
answered with `False`. -/
def s3_release_legal_hold (client : S3Client σ) (storage_uri : String) : Prog σ PyErr Bool := do
  let parsed ← lift (parse_storage_uri storage_uri)
  catching (do
    client.put_object_legal_hold parsed.bucket parsed.key "OFF"
    pure true) fun _ => pure false

def S3Held (client : S3Client σ) (storage_uri : String) (objects : σ) : Prop :=
  ∃ parsed, parse_storage_uri storage_uri = .ok parsed ∧
    client.legal_hold parsed.bucket parsed.key objects = some "ON"

/-! ## The store -/

/-- The store, and the objects of its storage beside it. The files of the
store are not used. -/
structure Backed (β σ : Type) where
  system : System β
  objects : σ

abbrev BackedAct (β σ α : Type) := Prog (Backed β σ) PyErr α

def on_system (m : HoldAct β α) : BackedAct β σ α := fun b =>
  ((m b.system).1.map fun s => { b with system := s }, (m b.system).2)

def on_objects (m : Prog σ PyErr α) : BackedAct β σ α := fun b =>
  ((m b.objects).1.map fun objects => { b with objects := objects }, (m b.objects).2)

/-- What the call answers is not looked at. -/
def release_object (settings : Settings β) (backend : ObjectStorageBackend σ) :
    Option String → BackedAct β σ Unit
  | none => pure ()
  | some storage_uri => do
    let now ← on_system (moment settings)
    let _ ← on_objects (backend.release_legal_hold now storage_uri)

/-- The record is marked as released before the storage is called. -/
def release_legal_hold (settings : Settings β) (backend : ObjectStorageBackend σ)
    (args : ReleaseArgs) : BackedAct β σ Hold := do
  let b ← stepwise.read
  let hold ← lift (check_release b.system args)
  let released_at ← on_system (utcnow_iso settings)
  let hold := released hold args released_at
  on_system (put_hold hold)
  let b ← stepwise.read
  let storage_uri ← lift (blob_of_hold b.system hold)
  let hold := { hold with storage_uri := storage_uri.or hold.storage_uri }
  on_system (put_hold hold)
  release_object settings backend storage_uri
  on_system (append_audit_log settings [("tenant_id", .str args.tenant_id),
    ("action", .str "legal_hold_released"), ("hold_id", .str args.hold_id),
    ("object_type", .str hold.object_type), ("object_id", .str hold.object_id),
    ("reason", .str (strip args.reason)), ("reviewer_id", .str (strip args.reviewer_id)),
    ("reviewer_id_2", .str (strip args.reviewer_id_2)),
    ("approval_reviewers", .list [.str (strip args.reviewer_id), .str (strip args.reviewer_id_2)]),
    ("trace_id", .str args.trace_id)])
  pure hold

end bid_evaluation.hold_backends
