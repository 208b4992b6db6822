-- The S3 backend of `object_storage.py`. Each call of the client goes to a
-- service that can refuse it, or do it and lose the answer; where the backend
-- catches what is raised, it answers that nothing is there.
import BidEvaluation.ObjectStorage

open dict_lib stepwise bid_evaluation.values
open bid_evaluation.object_storage (Time PutArgs Call Timed strip_slashes clean_segment
  parse_storage_uri blocked ObjectStorageConfig)

namespace bid_evaluation.s3_storage

/-! ## The service -/

/-- A bucket and a key. -/
abbrev Slot := List Char × List Char

structure S3Retention where
  mode : String
  retain_until : Time

/-- The current version of an object. -/
structure S3Object (β : Type) where
  body : β
  content_type : String
  legal_hold : Option String
  retention : Option S3Retention

abbrev Objects (β : Type) := Dict Slot (S3Object β)

/-- How a call ends that would be answered: it is, or it raises, with or
without what it does. -/
inductive Fate where
  | answered
  | refused
  | lost

/-- The objects, and how many calls were made. -/
structure Service (β : Type) where
  objects : Objects β
  calls : Nat

variable {β α : Type}

abbrev S3Act (β α : Type) := Prog (Service β) PyErr α

/-- A backend with its settings. The fates are those of the calls that only
read and of those that write, first to last. -/
structure S3ObjectStorage where
  bucket : String
  key_prefix : String
  worm_mode : Bool
  retention_days : Nat
  retention_mode : String
  upper : String → String
  /-- `now + timedelta(days=n)`. It has no value past the last year. -/
  plus_days : Time → Nat → Option Time
  read_fate : Nat → Fate
  write_fate : Nat → Fate

def S3ObjectStorage.init (upper : String → String) (plus_days : Time → Nat → Option Time)
    (read_fate write_fate : Nat → Fate) (config : ObjectStorageConfig) : S3ObjectStorage where
  bucket := config.bucket
  key_prefix := strip_slashes config.key_prefix
  worm_mode := config.worm_mode
  retention_days := config.retention_days.toNat
  retention_mode :=
    upper (if config.retention_mode = "" then "GOVERNANCE" else config.retention_mode)
  upper := upper
  plus_days := plus_days
  read_fate := read_fate
  write_fate := write_fate

def client_error (code : String) : PyErr := .raised "ClientError" code

/-- The objects after a call that would do `done`. -/
def objects_after (fate : Fate) (done : Except PyErr (α × Objects β)) (objects : Objects β) :
    Objects β :=
  match fate, done with
  | .refused, _ => objects
  | _, .ok (_, objects') => objects'
  | _, .error _ => objects

def answer_of (fate : Fate) (done : Except PyErr (α × Objects β)) : Except PyErr α :=
  match fate with
  | .answered => done.map Prod.fst
  | _ => .error (.raised "ConnectionClosedError" "")

/-- One call of the client, which does `op` to the objects. -/
def call (fate : Nat → Fate) (op : Objects β → Except PyErr (α × Objects β)) : S3Act β α := do
  let s ← read
  write (fun s => { s with
    objects := objects_after (fate s.calls) (op s.objects) s.objects
    calls := s.calls + 1 })
  lift (answer_of (fate s.calls) (op s.objects))

/-- What is asked about an object that is there. -/
def reading (storage : S3ObjectStorage) (slot : Slot) (f : S3Object β → Except PyErr α) :
    S3Act β α :=
  call storage.read_fate fun objects =>
    match objects.get? slot with
    | none => .error (client_error "NoSuchKey")
    | some object => (f object).map fun a => (a, objects)

/-- What is changed of an object that is there. -/
def changing (storage : S3ObjectStorage) (slot : Slot) (f : S3Object β → S3Object β) :
    S3Act β Unit :=
  call storage.write_fate fun objects =>
    match objects.get? slot with
    | none => .error (client_error "NoSuchKey")
    | some object => .ok ((), objects.set slot (f object))

/-! ## The client -/

/-- A put makes a new version, which has no hold and no retention yet. -/
def client_put_object (storage : S3ObjectStorage) (slot : Slot) (body : β) (content_type : String) :
    S3Act β Unit :=
  call storage.write_fate fun objects => .ok ((), objects.set slot ⟨body, content_type, none, none⟩)

def client_get_object (storage : S3ObjectStorage) (slot : Slot) : S3Act β β :=
  reading storage slot fun object => .ok object.body

def client_head_object (storage : S3ObjectStorage) (slot : Slot) : S3Act β Unit :=
  reading storage slot fun _ => .ok ()

/-- There need be no object. -/
def client_delete_object (storage : S3ObjectStorage) (slot : Slot) : S3Act β Unit :=
  call storage.write_fate fun objects => .ok ((), objects.erase slot)

def client_put_legal_hold (storage : S3ObjectStorage) (slot : Slot) (status : String) :
    S3Act β Unit :=
  changing storage slot fun object => { object with legal_hold := some status }

def client_get_legal_hold (storage : S3ObjectStorage) (slot : Slot) : S3Act β String :=
  reading storage slot fun object =>
    match object.legal_hold with
    | some status => .ok status
    | none => .error (client_error "NoSuchObjectLockConfiguration")

def client_put_retention (storage : S3ObjectStorage) (slot : Slot) (retention : S3Retention) :
    S3Act β Unit :=
  changing storage slot fun object => { object with retention := some retention }

def client_get_retention (storage : S3ObjectStorage) (slot : Slot) : S3Act β S3Retention :=
  reading storage slot fun object =>
    match object.retention with
    | some retention => .ok retention
    | none => .error (client_error "NoSuchObjectLockConfiguration")

/-! ## The backend -/

def build_key (storage : S3ObjectStorage) (args : PutArgs β) : String :=
  let safe_filename := clean_segment args.filename
  let safe_type := clean_segment args.object_type
  let safe_id := clean_segment args.object_id
  let safe_tenant := clean_segment args.tenant_id
  let base :=
    if safe_type = "document" then
      "tenants/" ++ safe_tenant ++ "/documents/" ++ safe_id ++ "/raw/" ++ safe_filename
    else if safe_type = "report" then
      "tenants/" ++ safe_tenant ++ "/reports/" ++ safe_id ++ "/" ++ safe_filename
    else "tenants/" ++ safe_tenant ++ "/" ++ safe_type ++ "/" ++ safe_id ++ "/" ++ safe_filename
  if storage.key_prefix = "" then base else storage.key_prefix ++ "/" ++ base

def uri_for_key (storage : S3ObjectStorage) (key : String) : String :=
  "object://s3/" ++ storage.bucket ++ "/" ++ key

def slot_of_uri (storage_uri : String) : Except PyErr Slot := do
  let parsed ← parse_storage_uri storage_uri
  pure (parsed.bucket, parsed.key)

/-- `True`, or `False` for all that is raised. -/
def whether (m : S3Act β Unit) : S3Act β Bool :=
  catching (do
    m
    pure true) fun _ => pure false

def object_exists (storage : S3ObjectStorage) (slot : Slot) : S3Act β Bool :=
  whether (client_head_object storage slot)

def set_retention (storage : S3ObjectStorage) (storage_uri mode : String) (retain_until : Time) :
    S3Act β Bool := do
  let slot ← lift (slot_of_uri storage_uri)
  whether (client_put_retention storage slot
    ⟨storage.upper (if mode = "" then storage.retention_mode else mode), retain_until⟩)

/-- The retention that the settings ask for. What setting it answers is not
looked at. -/
def retain_new (storage : S3ObjectStorage) (now : Time) (storage_uri : String) : S3Act β Unit :=
  if storage.retention_days > 0 then
    match storage.plus_days now storage.retention_days with
    | none => raise (.raised "OverflowError" "date value out of range")
    | some retain_until => do
      let _ ← set_retention storage storage_uri storage.retention_mode retain_until
      pure ()
  else pure ()

def slot_of_put (storage : S3ObjectStorage) (args : PutArgs β) : Slot :=
  (storage.bucket.toList, (build_key storage args).toList)

/-- `content_type or "application/octet-stream"`. -/
def content_type_or (content_type : Option String) : String :=
  match content_type with
  | none => "application/octet-stream"
  | some text => if text = "" then "application/octet-stream" else text

def write_object (storage : S3ObjectStorage) (now : Time) (args : PutArgs β) : S3Act β String := do
  client_put_object storage (slot_of_put storage args) args.content_bytes
    (content_type_or args.content_type)
  retain_new storage now (uri_for_key storage (build_key storage args))
  pure (uri_for_key storage (build_key storage args))

def put_object (storage : S3ObjectStorage) (now : Time) (args : PutArgs β) : S3Act β String :=
  if storage.worm_mode then do
    let there ← object_exists storage (slot_of_put storage args)
    if there then pure (uri_for_key storage (build_key storage args))
    else write_object storage now args
  else write_object storage now args

def get_object (storage : S3ObjectStorage) (storage_uri : String) : S3Act β β := do
  let slot ← lift (slot_of_uri storage_uri)
  client_get_object storage slot

def apply_legal_hold (storage : S3ObjectStorage) (storage_uri : String) : S3Act β Bool := do
  let slot ← lift (slot_of_uri storage_uri)
  whether (client_put_legal_hold storage slot "ON")

def release_legal_hold (storage : S3ObjectStorage) (storage_uri : String) : S3Act β Bool := do
  let slot ← lift (slot_of_uri storage_uri)
  whether (client_put_legal_hold storage slot "OFF")

def is_legal_hold_active (storage : S3ObjectStorage) (storage_uri : String) : S3Act β Bool := do
  let slot ← lift (slot_of_uri storage_uri)
  catching (do
    let status ← client_get_legal_hold storage slot
    pure (decide (status = "ON"))) fun _ => pure false

def get_retention (storage : S3ObjectStorage) (storage_uri : String) :
    S3Act β (Option S3Retention) := do
  let slot ← lift (slot_of_uri storage_uri)
  catching (do
    let retention ← client_get_retention storage slot
    pure (some retention)) fun _ => pure none

def is_retention_active (storage : S3ObjectStorage) (storage_uri : String) (now : Time) :
    S3Act β Bool := do
  let retention ← get_retention storage storage_uri
  pure (retention.any fun retention => now < retention.retain_until)

def delete_object (storage : S3ObjectStorage) (now : Time) (storage_uri : String) :
    S3Act β Bool := do
  if ← is_legal_hold_active storage storage_uri then
    raise (blocked "LEGAL_HOLD_ACTIVE" "object is under legal hold")
  else if ← is_retention_active storage storage_uri now then
    raise (blocked "RETENTION_ACTIVE" "object is under retention")
  else
    let slot ← lift (slot_of_uri storage_uri)
    client_delete_object storage slot
    pure true

/-! ## Runs -/

/-- Run a program and drop what it returns. -/
def drop (m : S3Act β α) : S3Act β Unit := do
  let _ ← m
  pure ()

def perform (storage : S3ObjectStorage) (timed : Timed β) : S3Act β Unit :=
  match timed.call with
  | .put_object args => drop (put_object storage timed.now args)
  | .get_object storage_uri => drop (get_object storage storage_uri)
  | .delete_object storage_uri => drop (delete_object storage timed.now storage_uri)
  | .apply_legal_hold storage_uri => drop (apply_legal_hold storage storage_uri)
  | .release_legal_hold storage_uri => drop (release_legal_hold storage storage_uri)
  | .is_legal_hold_active storage_uri => drop (is_legal_hold_active storage storage_uri)
  | .set_retention storage_uri mode retain_until =>
    drop (set_retention storage storage_uri mode retain_until)
  | .get_retention storage_uri => drop (get_retention storage storage_uri)
  | .is_retention_active storage_uri now =>
    drop (is_retention_active storage storage_uri (now.getD timed.now))

/-- Every state that some calls of the backend wrote, oldest first. -/
def states (storage : S3ObjectStorage) : Service β → List (Timed β) → List (Service β)
  | _, [] => []
  | s, timed :: rest =>
    (perform storage timed).written s ++ states storage ((perform storage timed).final s) rest

end bid_evaluation.s3_storage
