-- The laws of the local object storage over runs. With write-once on, an
-- object keeps its bytes, and only calls on its own address change its hold
-- and retention data, as long as no other call writes the object's file or
-- its sidecar under another name.
import BidEvaluation.ObjectFrames

open dict_lib file_tree stepwise lockstep bid_evaluation.values bid_evaluation.object_storage
  bid_evaluation.object_frames

namespace bid_evaluation.worm_laws

variable {β : Type} {storage : LocalObjectStorage β} {t t' : FileTree β} {path : Path}
  {storage_uri : String} {now : Time}

/-! ## Addresses -/

theorem takeWhile_slash {l : List Char} (rest : List Char) (h : '/' ∉ l) :
    (l ++ '/' :: rest).takeWhile (· ≠ '/') = l ∧ (l ++ '/' :: rest).dropWhile (· ≠ '/') = '/' :: rest := by
  have hall : ∀ c ∈ l, decide (c ≠ '/') = true := by
    intro c hc
    simpa using fun heq : c = '/' => h (heq ▸ hc)
  constructor
  · rw [List.takeWhile_append_of_pos hall]
    simp
  · rw [List.dropWhile_append_of_pos hall]
    simp

/-- Stated for variables, so that no literal is taken apart. -/
theorem toList_four (a b c d : String) :
    (a ++ b ++ c ++ d).toList = a.toList ++ b.toList ++ c.toList ++ d.toList := by
  simp only [String.toList_append]

/-- An address is read as far as the first slash after the scheme and the
backend, which can be one in the bucket's name. -/
theorem path_for_uri_split (key : String) {bucket rest : List Char} (hbucket : '/' ∉ bucket)
    (hsplit : storage.bucket.toList ++ '/' :: key.toList = bucket ++ '/' :: rest) :
    path_for_uri storage (uri_for_key storage key) = .ok (join (join storage.root bucket) rest) := by
  have hraw : (uri_for_key storage key).toList =
      "object://".toList ++ ("local".toList ++ '/' :: (bucket ++ '/' :: rest)) := by
    have htexts : (uri_for_key storage key).toList = "object://local/".toList ++
        storage.bucket.toList ++ "/".toList ++ key.toList := toList_four _ _ _ _
    have hstart : "object://local/".toList = "object://".toList ++ ("local".toList ++ ['/']) := by
      decide
    have hslash : "/".toList = ['/'] := by decide
    rw [htexts, hstart, hslash, ← hsplit]
    generalize "object://".toList = scheme
    generalize "local".toList = backend
    simp
  have hparsed : parse_storage_uri (uri_for_key storage key) =
      .ok ⟨"local".toList, bucket, rest⟩ := by
    have hlocal := takeWhile_slash (bucket ++ '/' :: rest)
      (show '/' ∉ "local".toList by decide)
    have hname := takeWhile_slash rest hbucket
    have hscheme : "object://".toList.isPrefixOf (uri_for_key storage key).toList = true := by
      rw [hraw, List.isPrefixOf_iff_prefix]
      exact List.prefix_append _ _
    have htwice : split_twice ("local".toList ++ '/' :: (bucket ++ '/' :: rest)) =
        some ⟨"local".toList, bucket, rest⟩ := by
      unfold split_twice
      rw [hlocal.1, hlocal.2]
      dsimp only
      rw [hname.1, hname.2]
    unfold parse_storage_uri
    dsimp only
    rw [if_pos hscheme, hraw, List.drop_left, htwice]
  unfold path_for_uri
  rw [hparsed]
  exact if_neg fun hne => hne rfl

/-- The address of a key leads to the path of the key. -/
theorem path_for_uri_of_key (hbucket : '/' ∉ storage.bucket.toList) (key : String) :
    path_for_uri storage (uri_for_key storage key) = .ok (path_for_key storage key) :=
  path_for_uri_split key hbucket rfl

/-! ## Calls on other addresses -/

/-- The address that a call is about. -/
def target (storage : LocalObjectStorage β) : Call β → String
  | .put_object args => uri_for_key storage (key_of storage args)
  | .get_object storage_uri | .delete_object storage_uri | .apply_legal_hold storage_uri
  | .release_legal_hold storage_uri | .is_legal_hold_active storage_uri
  | .set_retention storage_uri _ _ | .get_retention storage_uri
  | .is_retention_active storage_uri _ => storage_uri

/-- The call writes neither the object's file nor its sidecar. -/
def Apart (storage : LocalObjectStorage β) (storage_uri : String) (t : FileTree β) (call : Call β) :
    Prop :=
  ∀ p ∈ reach storage t call, p ∉ object_places storage storage_uri

instance (storage : LocalObjectStorage β) (storage_uri : String) (t : FileTree β) (call : Call β) :
    Decidable (Apart storage storage_uri t call) :=
  inferInstanceAs (Decidable (∀ p ∈ reach storage t call, p ∉ object_places storage storage_uri))

/-- The files after a timed call. -/
def next (storage : LocalObjectStorage β) (t : FileTree β) (timed : Timed β) : FileTree β :=
  (timed.call.act storage timed.now).final t

/-- What spares an object that is there leaves what its paths lead to. -/
theorem same_of_spares {S : Set Place} (hpath : path_for_uri storage storage_uri = .ok path)
    (hthere : (lookup t path).isSome = true)
    (hspares : Spares S t t') (hout : ∀ p ∈ object_places storage storage_uri, p ∉ S) :
    ∀ q ∈ object_paths storage storage_uri, lookup t' q = lookup t q := by
  have hpaths : object_paths storage storage_uri = [path, meta_path path] := by
    simp [object_paths, hpath]
  obtain ⟨entry, hentry⟩ := Option.isSome_iff_exists.1 hthere
  obtain ⟨p, hp, -⟩ := Option.bind_eq_some_iff.1 hentry
  intro q hq
  have hlocated : locate t q = some (placeOf q) := by
    rw [hpaths, List.mem_pair] at hq
    rcases hq with rfl | rfl
    · rw [hp, locate_eq hp]
    · exact locate_beside hp
  exact hspares.lookup hlocated (hout _ (List.mem_map_of_mem hq))

theorem same_of_apart {timed : Timed β} (hpath : path_for_uri storage storage_uri = .ok path)
    (hthere : (lookup t path).isSome = true)
    (hapart : Apart storage storage_uri t timed.call) :
    ∀ q ∈ object_paths storage storage_uri, lookup (next storage t timed) q = lookup t q :=
  same_of_spares hpath hthere (call_spares storage t timed) fun p hp hreach => hapart p hreach hp

/-! ## An object keeps its bytes -/

/-- The bytes can be read at the address. -/
def Stored (storage : LocalObjectStorage β) (storage_uri : String) (content : β) (t : FileTree β) :
    Prop :=
  (get_object storage storage_uri).result t = .ok content

theorem stored_iff {content : β} (hpath : path_for_uri storage storage_uri = .ok path) :
    Stored storage storage_uri content t ↔
      fits storage path = true ∧ lookup t path = some (.file content) := by
  have hget : (get_object storage storage_uri).result t =
      (path_exists storage path >>= fun there => if there = true then read_bytes path
        else raise (.raised "FileNotFoundError" storage_uri)).result t := by
    unfold get_object
    rw [hpath]
    exact result_bind rfl
  have hexists := path_exists_result storage path t
  have hfinal := path_exists_quiet storage path t
  unfold Stored
  rw [hget]
  by_cases hfits : fits storage path = true
  · rw [if_pos hfits] at hexists
    rw [result_bind hexists, hfinal]
    rcases hfound : lookup t path with _ | entry
    · simp [Prog.result, raise]
    · rw [Option.isSome_some, if_pos rfl]
      show content_of (lookup t path) = .ok content ↔ _
      rw [hfound]
      cases entry with
      | file found => simp [content_of, hfits]
      | directory => simp [content_of]
  · rw [if_neg hfits] at hexists
    rw [result_bind_error hexists]
    simp [hfits]

/-- The hold and the retention as they are read at the address. -/
def protection (storage : LocalObjectStorage β) (storage_uri : String) (t : FileTree β) :
    Except PyErr Bool × Except PyErr (Option Retention) :=
  ((is_legal_hold_active storage storage_uri).result t, (get_retention storage storage_uri).result t)

theorem protection_same
    (hsame : ∀ q ∈ object_paths storage storage_uri, lookup t' q = lookup t q) :
    protection storage storage_uri t' = protection storage storage_uri t := by
  unfold protection
  rw [looks_is_legal_hold_active.same t t' hsame, looks_get_retention.same t t' hsame]

/-- The storage lets the object be deleted. -/
def DeleteAllowed (storage : LocalObjectStorage β) (now : Time) (storage_uri : String)
    (t : FileTree β) : Prop :=
  (is_legal_hold_active storage storage_uri).result t = .ok false ∧
    (is_retention_active storage storage_uri now).result t = .ok false

theorem delete_object_blocked (h : ¬ DeleteAllowed storage now storage_uri t) :
    (delete_object storage now storage_uri).final t = t := by
  have hhold := is_legal_hold_active_quiet storage storage_uri t
  have hretention := is_retention_active_quiet storage storage_uri now t
  unfold delete_object
  rcases hheld : (is_legal_hold_active storage storage_uri).result t with e | held
  · rw [final_bind_error hheld, hhold]
  · rw [final_bind hheld, hhold]
    cases held with
    | true => rfl
    | false =>
      rw [if_neg (by simp)]
      rcases hactive : (is_retention_active storage storage_uri now).result t with e | active
      · rw [final_bind_error hactive, hretention]
      · rw [final_bind hactive, hretention]
        cases active with
        | true => rfl
        | false => exact absurd ⟨hheld, hactive⟩ h

/-- A call on the address itself leaves the object's file, unless it is a
delete that is allowed. -/
theorem own_call_leaves_file {timed : Timed β} (hworm : storage.worm_mode = true)
    (hbucket : '/' ∉ storage.bucket.toList)
    (hpath : path_for_uri storage storage_uri = .ok path) (hthere : (lookup t path).isSome = true)
    (hown : target storage timed.call = storage_uri)
    (hblocked : timed.call = .delete_object storage_uri →
      ¬ DeleteAllowed storage timed.now storage_uri t) :
    lookup (next storage t timed) path = lookup t path := by
  obtain ⟨entry, hentry⟩ := Option.isSome_iff_exists.1 hthere
  obtain ⟨p, hp, -⟩ := Option.bind_eq_some_iff.1 hentry
  have hout : ∀ {S : Set Place}, Spares S t (next storage t timed) → placeOf path ∉ S →
      lookup (next storage t timed) path = lookup t path := by
    intro S hspares hnotin
    exact hspares.lookup hp (locate_eq hp ▸ hnotin)
  have hsidecar : placeOf path ∉ sidecar_places storage storage_uri := by
    simp only [sidecar_places, hpath, List.mem_singleton]
    exact (placeOf_beside_ne path (by decide)).symm
  have hspares := call_spares storage t timed
  obtain ⟨clock, call⟩ := timed
  cases call with
  | put_object args =>
    have hsame : path_for_key storage (key_of storage args) = path := by
      have hkey := path_for_uri_of_key hbucket (key_of storage args)
      rw [show uri_for_key storage (key_of storage args) = storage_uri from hown, hpath] at hkey
      exact (Except.ok.inj hkey).symm
    refine hout hspares ?_
    show placeOf path ∉ reach storage t (.put_object args)
    rw [reach, hsame, if_pos ⟨hthere, hworm⟩]
    exact List.not_mem_nil
  | delete_object uri =>
    cases hown
    show lookup ((wrap Reply.flag (delete_object storage clock uri)).final t) path = _
    rw [wrap, final_bind_pure]
    exact congrArg (fun files => lookup files path) (delete_object_blocked (hblocked rfl))
  | apply_legal_hold uri =>
    cases hown
    exact hout hspares hsidecar
  | release_legal_hold uri =>
    cases hown
    exact hout hspares hsidecar
  | set_retention uri mode retain_until =>
    cases hown
    exact hout hspares hsidecar
  | get_object uri => exact hout hspares List.not_mem_nil
  | is_legal_hold_active uri => exact hout hspares List.not_mem_nil
  | get_retention uri => exact hout hspares List.not_mem_nil
  | is_retention_active uri moment => exact hout hspares List.not_mem_nil

/-- The address that a put returns. -/
def address (storage : LocalObjectStorage β) (args : PutArgs β) : String :=
  uri_for_key storage (key_of storage args)

/-- The storage from the end of a put on. -/
def since (storage : LocalObjectStorage β) (now : Time) (args : PutArgs β) (t : FileTree β) :
    Machine (FileTree β) (Timed β) (Except PyErr (Reply β)) :=
  machine storage ((put_object storage now args).final t)

/-- The put made the object: nothing stood at its place, and afterwards its
bytes can be read. -/
structure Creates (storage : LocalObjectStorage β) (now : Time) (args : PutArgs β) (t : FileTree β) :
    Prop where
  absent : t.get? (placeOf (path_for_key storage (key_of storage args))) = none
  readable : ∃ content, Stored storage (address storage args) content (since storage now args t).start

/-- A file that a put leaves at its place was there, or has the put's bytes. -/
theorem put_object_file {args : PutArgs β} {content : β}
    (h : ((put_object storage now args).final t).get?
      (placeOf (path_for_key storage (key_of storage args))) = some (.file content)) :
    t.get? (placeOf (path_for_key storage (key_of storage args))) = some (.file content) ∨
      content = args.content_bytes := by
  generalize hpath : path_for_key storage (key_of storage args) = path at h ⊢
  let R : FileTree β → FileTree β → Prop := fun a b => ∀ c, b.get? (placeOf path) = some (.file c) →
    a.get? (placeOf path) = some (.file c) ∨ c = args.content_bytes
  have hrefl : ∀ a, R a a := fun a c hc => .inl hc
  have htrans : ∀ a b d, R a b → R b d → R a d := by
    intro a b d hab hbd c hc
    rcases hbd c hc with hb | hb
    · exact hab c hb
    · exact .inr hb
  have hmkdir : Keeps R (mkdir storage path.dropLast) := by
    refine keeps_ite (keeps_of_read fun t => ?_) (keeps_raise _)
    have hmade : R t (makeDirs t path.dropLast).1 := fun c hc => .inl (makeDirsFrom_files hc)
    split
    · exact ⟨hmade, trivial⟩
    · exact ⟨hmade, trivial⟩
  have hwrite : Keeps R (write_bytes storage path args.content_bytes) := by
    refine keeps_of_read fun t => ?_
    split
    · rename_i t' hwritten
      refine ⟨fun c hc => ?_, trivial⟩
      split at hwritten
      · rw [writeFile_get hwritten] at hc
        cases hc
        exact .inr rfl
      · cases hwritten
    · trivial
  have hmeta : ∀ fields, Keeps R (write_meta storage path fields) := fun fields =>
    (write_bytes_spares _).mono fun a b hspares c hc => by
      rw [hspares.same _ (placeOf_beside_ne path (by decide)).symm] at hc
      exact .inl hc
  have hput : Keeps R (put_object storage now args) := by
    unfold put_object
    dsimp only
    rw [hpath]
    refine keeps_bind keeps_path_exists fun _ => keeps_ite (keeps_pure _) ?_
    refine keeps_bind ?_ fun _ => keeps_pure _
    refine keeps_bind hmkdir fun _ => keeps_bind hwrite fun _ => ?_
    exact keeps_bind (keeps_lift _) fun fields => hmeta fields
  exact hput.final hrefl htrans t content h

theorem created_bytes {args : PutArgs β} (hbucket : '/' ∉ storage.bucket.toList)
    (h : Creates storage now args t) :
    Stored storage (address storage args) args.content_bytes (since storage now args t).start := by
  obtain ⟨content, hread⟩ := h.readable
  have hpath := path_for_uri_of_key hbucket (key_of storage args)
  have hfound := ((stored_iff hpath).1 hread).2
  obtain ⟨p, hp, hget⟩ := Option.bind_eq_some_iff.1 hfound
  split at hget
  · cases hget
  · rw [locate_eq hp] at hget
    rcases put_object_file hget with hbefore | heq
    · rw [h.absent] at hbefore
      cases hbefore
    · exact heq ▸ hread

/-- What each step of a run has to meet: no call on another address writes
the object's file or its sidecar. The run ends at a delete that is allowed. -/
def KeepsOff (storage : LocalObjectStorage β) (storage_uri : String) (t : FileTree β)
    (timed : Timed β) : Prop :=
  (target storage timed.call ≠ storage_uri → Apart storage storage_uri t timed.call) ∧
    (timed.call = .delete_object storage_uri → ¬ DeleteAllowed storage timed.now storage_uri t)

/-- With write-once on, an object that a put made has the bytes of that put
in every state of a run, and a call on another address leaves its hold and
its retention. -/
theorem worm_object_stays {args : PutArgs β} {calls : List (Timed β)}
    (hworm : storage.worm_mode = true) (hbucket : '/' ∉ storage.bucket.toList)
    (hcreates : Creates storage now args t)
    (hcalls : Throughout (since storage now args t) (KeepsOff storage (address storage args)) calls) :
    ∀ before, before <+: calls →
      (get_object storage (address storage args)).result ((since storage now args t).after before) =
          .ok args.content_bytes ∧
      ∀ timed, before ++ [timed] <+: calls → target storage timed.call ≠ address storage args →
        protection storage (address storage args)
            ((since storage now args t).after (before ++ [timed])) =
          protection storage (address storage args) ((since storage now args t).after before) := by
  have hpath : path_for_uri storage (address storage args) =
      .ok (path_for_key storage (key_of storage args)) := path_for_uri_of_key hbucket _
  have hstored : ∀ before, before <+: calls → Stored storage (address storage args)
      args.content_bytes ((since storage now args t).after before) :=
    along (created_bytes hbucket hcreates) (by
      intro before timed hpart h
      rw [Machine.after_concat]
      obtain ⟨hfits, hfile⟩ := (stored_iff hpath).1 h
      have hthere := Option.isSome_iff_exists.2 ⟨_, hfile⟩
      obtain ⟨hother, hblocked⟩ := hcalls before timed hpart
      refine (stored_iff hpath).2 ⟨hfits, ?_⟩
      by_cases hown : target storage timed.call = address storage args
      · exact (own_call_leaves_file hworm hbucket hpath hthere hown hblocked).trans hfile
      · refine (same_of_apart hpath hthere (hother hown) _ ?_).trans hfile
        simp [object_paths, hpath])
  intro before hpart
  refine ⟨hstored before hpart, fun timed hnext hother => ?_⟩
  rw [Machine.after_concat]
  have hthere := Option.isSome_iff_exists.2 ⟨_, ((stored_iff hpath).1 (hstored before hpart)).2⟩
  exact protection_same (same_of_apart hpath hthere ((hcalls before timed hnext).1 hother))

/-! ## Names that meet -/

/-- Bytes as a test needs them: a text, or the text of a sidecar. -/
inductive FileText where
  | text (s : String)
  | json (fields : PyDict)

def text_of : Except PyErr FileText → Option String
  | .ok (.text s) => some s
  | _ => none

theorem ok_of_text {r : Except PyErr FileText} {s : String} (h : text_of r = some s) :
    r = .ok (.text s) := by
  rcases r with e | ⟨text⟩ | fields
  · cases h
  · cases h
    rfl
  · cases h

def unary_time (t : Time) : String :=
  String.ofList (match t with
    | .ofNat n => '+' :: List.replicate n '0'
    | .negSucc n => '-' :: List.replicate n '0')

def read_unary (text : String) : Option Time :=
  match text.toList with
  | '+' :: rest => some (.ofNat rest.length)
  | '-' :: rest => some (.negSucc rest.length)
  | _ => none

/-- A library that writes a time as so many zeros. -/
def plain_library : Library FileText where
  isoformat := unary_time
  fromisoformat := read_unary
  plus_days now days := some (now + days)
  upper := String.toUpper
  dumps := .json
  loads
    | .json fields => .ok (.dict fields)
    | .text _ => .error (.raised "JSONDecodeError" "Expecting value")
  isoformat_read := by
    intro t
    have hread : read_unary (unary_time t) = some t := by
      unfold read_unary unary_time
      cases t with
      | ofNat n => simp
      | negSucc n => simp
    refine ⟨?_, hread⟩
    intro hempty
    rw [hempty] at hread
    cases hread
  loads_dumps fields := ⟨fields, rfl, fun _ => rfl⟩

def worm_storage : LocalObjectStorage FileText :=
  .init plain_library 255 ⟨"bea", ["tmp", "bea-object-storage"], "", true, 0, "GOVERNANCE"⟩

def document (filename text : String) : PutArgs FileText where
  tenant_id := "tenant"
  object_type := "document"
  object_id := "doc_a"
  filename := filename
  content_bytes := .text text
  content_type := none

/-- A hold on the object, and a second document beside it. -/
def calm_calls : List (Timed FileText) :=
  [⟨1, .apply_legal_hold (address worm_storage (document "bid.pdf" "bid"))⟩,
    ⟨2, .put_object (document "tender.pdf" "tender")⟩]

theorem calm_object_stays :
    (get_object worm_storage (address worm_storage (document "bid.pdf" "bid"))).result
      ((since worm_storage 0 (document "bid.pdf" "bid") Dict.empty).after calm_calls) =
        .ok (.text "bid") := by
  have hcreates : Creates worm_storage 0 (document "bid.pdf" "bid") Dict.empty :=
    ⟨rfl, .text "bid", ok_of_text (by decide +kernel)⟩
  have hcalls : Throughout (since worm_storage 0 (document "bid.pdf" "bid") Dict.empty)
      (KeepsOff worm_storage (address worm_storage (document "bid.pdf" "bid"))) calm_calls := by
    refine throughout_concat [_] (throughout_concat [] (throughout_nil _ _) ?_) ?_
    · exact ⟨fun hne => absurd rfl hne, fun h => by cases h⟩
    · exact ⟨fun _ => by decide +kernel, fun h => by cases h⟩
  exact (worm_object_stays rfl (by decide) hcreates hcalls calm_calls (List.prefix_refl _)).1

/-- A document whose name is that of a sidecar. The next put beside it writes
its own sidecar there. -/
theorem sidecar_name_is_overwritten :
    let object := document "bid.pdf.meta.json" "bid"
    let files := since worm_storage 0 object Dict.empty
    worm_storage.worm_mode = true ∧
      text_of ((get_object worm_storage (address worm_storage object)).result files.start) =
        some "bid" ∧
      text_of ((get_object worm_storage (address worm_storage object)).result
        (files.after [⟨1, .put_object (document "bid.pdf" "other")⟩])) = none := by
  decide +kernel

end bid_evaluation.worm_laws
