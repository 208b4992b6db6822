-- The local object storage of `object_storage.py`. An object is a file. Its
-- hold and retention data are in a second file beside it, the sidecar.
import BidEvaluation.Lib.FileTree
import BidEvaluation.Lib.Stepwise
import BidEvaluation.Lib.Lockstep
import BidEvaluation.Values

open dict_lib file_tree stepwise lockstep bid_evaluation.values

namespace bid_evaluation.object_storage

/-- Microseconds. -/
abbrev Time := Int

/-- The parts of Python's library that write and read a sidecar: `datetime`
and `json`, over the bytes `β` of a file. -/
structure Library (β : Type) where
  isoformat : Time → String
  fromisoformat : String → Option Time
  /-- `now + timedelta(days=n)`. It has no value past the last year. -/
  plus_days : Time → Nat → Option Time
  upper : String → String
  dumps : PyDict → β
  loads : β → Except PyErr PyVal
  isoformat_read : ∀ t, isoformat t ≠ "" ∧ fromisoformat (isoformat t) = some t
  loads_dumps : ∀ d, ∃ d', loads (dumps d) = .ok (.dict d') ∧ ∀ k, lookupEntry d' k = lookupEntry d k

structure ObjectStorageConfig where
  bucket : String
  root : Path
  key_prefix : String
  worm_mode : Bool
  retention_days : Int
  retention_mode : String

/-- A backend with its settings. `name_max` is the longest name, in bytes,
that the file system takes. -/
structure LocalObjectStorage (β : Type) where
  library : Library β
  name_max : Nat
  bucket : String
  root : Path
  key_prefix : String
  worm_mode : Bool
  retention_days : Nat
  retention_mode : String

def strip_slashes (s : String) : String :=
  String.ofList ((s.toList.dropWhile (· = '/')).reverse.dropWhile (· = '/')).reverse

def LocalObjectStorage.init (library : Library β) (name_max : Nat) (config : ObjectStorageConfig) :
    LocalObjectStorage β where
  library := library
  name_max := name_max
  bucket := config.bucket
  root := config.root
  key_prefix := strip_slashes config.key_prefix
  worm_mode := config.worm_mode
  retention_days := config.retention_days.toNat
  retention_mode :=
    library.upper (if config.retention_mode = "" then "GOVERNANCE" else config.retention_mode)

/-! ## Keys, addresses and paths -/

def is_segment_char (c : Char) : Bool :=
  c.isAlphanum || c = '.' || c = '_' || c = '-'

/-- Each run of other characters becomes one underscore. -/
def squeeze : List Char → List Char
  | [] => []
  | c :: rest =>
    if is_segment_char c then c :: squeeze rest
    else match rest with
      | d :: _ => if is_segment_char d then '_' :: squeeze rest else squeeze rest
      | [] => ['_']

def clean_segment (value : String) : String :=
  let cleaned := String.ofList (squeeze (strip value).toList)
  if cleaned = "" then "object" else cleaned

variable {β : Type}

def build_key (storage : LocalObjectStorage β) (tenant_id object_type object_id filename : String) :
    String :=
  let safe_filename := clean_segment filename
  let safe_type := clean_segment object_type
  let safe_id := clean_segment object_id
  let safe_tenant := clean_segment tenant_id
  let base :=
    if safe_type = "document" then
      "tenants/" ++ safe_tenant ++ "/documents/" ++ safe_id ++ "/raw/" ++ safe_filename
    else if safe_type = "report" then
      "tenants/" ++ safe_tenant ++ "/reports/" ++ safe_id ++ "/" ++ safe_filename
    else "tenants/" ++ safe_tenant ++ "/" ++ safe_type ++ "/" ++ safe_id ++ "/" ++ safe_filename
  if storage.key_prefix = "" then base else storage.key_prefix ++ "/" ++ base

def uri_for_key (storage : LocalObjectStorage β) (key : String) : String :=
  "object://local/" ++ storage.bucket ++ "/" ++ key

/-- The parts of a path. `pathlib` drops the empty ones and the dots. -/
def path_names (text : List Char) : Path :=
  ((text.splitOn '/').map String.ofList).filter fun name => name ≠ "" ∧ name ≠ "."

/-- `base / text`. A text that starts with a slash starts over. -/
def join (base : Path) (text : List Char) : Path :=
  if text.head? = some '/' then path_names text else base ++ path_names text

def path_for_key (storage : LocalObjectStorage β) (key : String) : Path :=
  join (join storage.root storage.bucket.toList) key.toList

structure ParsedUri where
  backend : List Char
  bucket : List Char
  key : List Char

/-- `raw.split("/", 2)`, when it has three parts. -/
def split_twice (raw : List Char) : Option ParsedUri :=
  match raw.dropWhile (· ≠ '/') with
  | [] => none
  | _ :: rest =>
    match rest.dropWhile (· ≠ '/') with
    | [] => none
    | _ :: key => some ⟨raw.takeWhile (· ≠ '/'), rest.takeWhile (· ≠ '/'), key⟩

def parse_storage_uri (uri : String) : Except PyErr ParsedUri :=
  let scheme := "object://".toList
  if scheme.isPrefixOf uri.toList then
    match split_twice (uri.toList.drop scheme.length) with
    | some parsed => .ok parsed
    | none => .error (.raised "ValueError" "invalid storage uri")
  else .error (.raised "ValueError" "invalid storage uri")

def path_for_uri (storage : LocalObjectStorage β) (storage_uri : String) : Except PyErr Path :=
  match parse_storage_uri storage_uri with
  | .error e => .error e
  | .ok parsed =>
    if parsed.backend ≠ "local".toList then .error (.raised "ValueError" "storage backend mismatch")
    else .ok (join (join storage.root parsed.bucket) parsed.key)

def meta_path (path : Path) : Path := beside ".meta.json" path

/-! ## Files -/

abbrev Act (β α : Type) := Prog (FileTree β) PyErr α

def fits (storage : LocalObjectStorage β) (path : Path) : Bool :=
  path.all fun name => name.utf8ByteSize ≤ storage.name_max

def os_error : PyErr := .raised "OSError" ""

/-- `path.exists()`. A name that is too long is an error. -/
def path_exists (storage : LocalObjectStorage β) (path : Path) : Act β Bool := do
  if fits storage path then
    let t ← stepwise.read
    pure (lookup t path).isSome
  else raise os_error

def content_of : Option (Entry β) → Except PyErr β
  | some (.file content) => .ok content
  | some .directory => .error (.raised "IsADirectoryError" "")
  | none => .error (.raised "FileNotFoundError" "")

def read_bytes (path : Path) : Act β β := do
  let t ← stepwise.read
  lift (content_of (lookup t path))

def write_bytes (storage : LocalObjectStorage β) (path : Path) (content : β) : Act β Unit := do
  let t ← stepwise.read
  match if fits storage path then writeFile t path content else none with
  | some t' => write fun _ => t'
  | none => raise os_error

/-- `path.mkdir(parents=True, exist_ok=True)`. -/
def mkdir (storage : LocalObjectStorage β) (path : Path) : Act β Unit := do
  if fits storage path then
    let t ← stepwise.read
    write fun _ => (makeDirs t path).1
    if (makeDirs t path).2 then pure () else raise os_error
  else raise os_error

def unlink_path (path : Path) : Act β Unit := do
  let t ← stepwise.read
  match unlink t path with
  | some t' => write fun _ => t'
  | none => raise os_error

/-! ## Sidecars -/

def no_meta : PyVal := .dict [("legal_hold", .bool false)]

def loads_or_default (storage : LocalObjectStorage β) (text : β) : Except PyErr PyVal :=
  match storage.library.loads text with
  | .error (.raised class_name message) =>
    if class_name = "JSONDecodeError" then .ok no_meta else .error (.raised class_name message)
  | r => r

def read_meta (storage : LocalObjectStorage β) (path : Path) : Act β PyVal := do
  if ← path_exists storage (meta_path path) then
    let text ← read_bytes (meta_path path)
    lift (loads_or_default storage text)
  else pure no_meta

def write_meta (storage : LocalObjectStorage β) (path : Path) (fields : PyDict) : Act β Unit :=
  write_bytes storage (meta_path path) (storage.library.dumps fields)

/-- `meta.get(..)` on what was read. -/
def for_get : PyVal → Except PyErr PyDict
  | .dict fields => .ok fields
  | _ => .error (.raised "AttributeError" "object has no attribute 'get'")

/-- `meta[..] = ..` on what was read. -/
def for_set : PyVal → Except PyErr PyDict
  | .dict fields => .ok fields
  | _ => .error (.raised "TypeError" "object does not support item assignment")

/-! ## The operations -/

def new_meta (storage : LocalObjectStorage β) (now : Time) (content_type : Option String) :
    PyDict :=
  [("legal_hold", .bool false),
    ("content_type", .str (match content_type with
      | some text => if text = "" then "application/octet-stream" else text
      | none => "application/octet-stream")),
    ("created_at", .str (storage.library.isoformat now)),
    ("retention_mode", .str storage.retention_mode)]

/-- The sidecar of a put, with the end of the retention that the settings ask
for. -/
def put_meta (storage : LocalObjectStorage β) (now : Time) (content_type : Option String) :
    Except PyErr PyDict :=
  if storage.retention_days > 0 then
    match storage.library.plus_days now storage.retention_days with
    | some retain_until => .ok ((new_meta storage now content_type).set "retention_until"
        (.str (storage.library.isoformat retain_until)))
    | none => .error (.raised "OverflowError" "date value out of range")
  else .ok (new_meta storage now content_type)

structure PutArgs (β : Type) where
  tenant_id : String
  object_type : String
  object_id : String
  filename : String
  content_bytes : β
  content_type : Option String

def key_of (storage : LocalObjectStorage β) (args : PutArgs β) : String :=
  build_key storage args.tenant_id args.object_type args.object_id args.filename

def write_object (storage : LocalObjectStorage β) (now : Time) (path : Path) (args : PutArgs β) :
    Act β Unit := do
  mkdir storage path.dropLast
  write_bytes storage path args.content_bytes
  let fields ← lift (put_meta storage now args.content_type)
  write_meta storage path fields

def put_object (storage : LocalObjectStorage β) (now : Time) (args : PutArgs β) :
    Act β String := do
  let key := key_of storage args
  let path := path_for_key storage key
  let there ← path_exists storage path
  if there ∧ storage.worm_mode then pure (uri_for_key storage key)
  else
    write_object storage now path args
    pure (uri_for_key storage key)

def get_object (storage : LocalObjectStorage β) (storage_uri : String) : Act β β := do
  let path ← lift (path_for_uri storage storage_uri)
  if ← path_exists storage path then read_bytes path
  else raise (.raised "FileNotFoundError" storage_uri)

def is_legal_hold_active (storage : LocalObjectStorage β) (storage_uri : String) :
    Act β Bool := do
  let path ← lift (path_for_uri storage storage_uri)
  if ← path_exists storage path then
    let loaded ← read_meta storage path
    let fields ← lift (for_get loaded)
    pure (fields.getD "legal_hold" (.bool false)).truthy
  else pure false

structure Retention where
  mode : PyVal
  retain_until : PyVal

def get_retention (storage : LocalObjectStorage β) (storage_uri : String) :
    Act β (Option Retention) := do
  let path ← lift (path_for_uri storage storage_uri)
  if ← path_exists storage path then
    let loaded ← read_meta storage path
    let fields ← lift (for_get loaded)
    let retain_until := fields.get "retention_until"
    if retain_until.truthy then
      pure (some ⟨fields.getD "retention_mode" (.str storage.retention_mode), retain_until⟩)
    else pure none
  else pure none

/-- `datetime.fromisoformat(..)`, when it does not raise. -/
def end_of (storage : LocalObjectStorage β) : PyVal → Option Time
  | .str text => storage.library.fromisoformat text
  | _ => none

def is_retention_active (storage : LocalObjectStorage β) (storage_uri : String) (now : Time) :
    Act β Bool := do
  let retention ← get_retention storage storage_uri
  pure (match retention.bind fun r => end_of storage r.retain_until with
    | some retain_until => now < retain_until
    | none => false)

def blocked (code message : String) : PyErr :=
  .api ⟨code, message, "business_rule", false, 409⟩

def unlink_if_there (storage : LocalObjectStorage β) (path : Path) : Act β Unit := do
  if ← path_exists storage path then unlink_path path else pure ()

def delete_object (storage : LocalObjectStorage β) (now : Time) (storage_uri : String) :
    Act β Bool := do
  if ← is_legal_hold_active storage storage_uri then
    raise (blocked "LEGAL_HOLD_ACTIVE" "object is under legal hold")
  else if ← is_retention_active storage storage_uri now then
    raise (blocked "RETENTION_ACTIVE" "object is under retention")
  else
    let path ← lift (path_for_uri storage storage_uri)
    if ← path_exists storage path then
      unlink_path path
      unlink_if_there storage (meta_path path)
      pure true
    else pure false

/-- The part that the three operations on a sidecar share. -/
def edit_meta (storage : LocalObjectStorage β) (storage_uri : String) (edit : PyDict → PyDict) :
    Act β Bool := do
  let path ← lift (path_for_uri storage storage_uri)
  if ← path_exists storage path then
    let loaded ← read_meta storage path
    let fields ← lift (for_set loaded)
    write_meta storage path (edit fields)
    pure true
  else pure false

def apply_legal_hold (storage : LocalObjectStorage β) (now : Time) (storage_uri : String) :
    Act β Bool :=
  edit_meta storage storage_uri fun fields =>
    (fields.set "legal_hold" (.bool true)).set "legal_hold_at" (.str (storage.library.isoformat now))

def release_legal_hold (storage : LocalObjectStorage β) (now : Time) (storage_uri : String) :
    Act β Bool :=
  edit_meta storage storage_uri fun fields =>
    (fields.set "legal_hold" (.bool false)).set "legal_hold_released_at"
      (.str (storage.library.isoformat now))

def set_retention (storage : LocalObjectStorage β) (storage_uri mode : String)
    (retain_until : Time) : Act β Bool :=
  edit_meta storage storage_uri fun fields =>
    (fields.set "retention_mode"
      (.str (storage.library.upper (if mode = "" then storage.retention_mode else mode)))).set
      "retention_until" (.str (storage.library.isoformat retain_until))

/-! ## Runs -/

inductive Call (β : Type) where
  | put_object (args : PutArgs β)
  | get_object (storage_uri : String)
  | delete_object (storage_uri : String)
  | apply_legal_hold (storage_uri : String)
  | release_legal_hold (storage_uri : String)
  | is_legal_hold_active (storage_uri : String)
  | set_retention (storage_uri mode : String) (retain_until : Time)
  | get_retention (storage_uri : String)
  | is_retention_active (storage_uri : String) (now : Option Time)

inductive Reply (β : Type) where
  | uri (storage_uri : String)
  | bytes (content : β)
  | flag (b : Bool)
  | retention (r : Option Retention)

/-- A call and the time at which it is made. -/
structure Timed (β : Type) where
  now : Time
  call : Call β

/-- Run a program and wrap what it returns. -/
def wrap {α α' : Type} (f : α → α') (m : Act β α) : Act β α' := do
  let a ← m
  pure (f a)

def Call.act (storage : LocalObjectStorage β) (clock : Time) : Call β → Act β (Reply β)
  | .put_object args => wrap .uri (object_storage.put_object storage clock args)
  | .get_object storage_uri => wrap .bytes (object_storage.get_object storage storage_uri)
  | .delete_object storage_uri =>
    wrap .flag (object_storage.delete_object storage clock storage_uri)
  | .apply_legal_hold storage_uri =>
    wrap .flag (object_storage.apply_legal_hold storage clock storage_uri)
  | .release_legal_hold storage_uri =>
    wrap .flag (object_storage.release_legal_hold storage clock storage_uri)
  | .is_legal_hold_active storage_uri =>
    wrap .flag (object_storage.is_legal_hold_active storage storage_uri)
  | .set_retention storage_uri mode retain_until =>
    wrap .flag (object_storage.set_retention storage storage_uri mode retain_until)
  | .get_retention storage_uri =>
    wrap .retention (object_storage.get_retention storage storage_uri)
  | .is_retention_active storage_uri now =>
    wrap .flag (object_storage.is_retention_active storage storage_uri (now.getD clock))

/-- The storage as a machine that answers calls, on the files that are there
at the start. -/
def machine (storage : LocalObjectStorage β) (t : FileTree β) :
    Machine (FileTree β) (Timed β) (Except PyErr (Reply β)) where
  start := t
  step t timed := ((timed.call.act storage timed.now).final t, (timed.call.act storage timed.now).result t)

end bid_evaluation.object_storage
