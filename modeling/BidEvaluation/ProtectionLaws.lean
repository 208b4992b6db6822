-- The laws of holds and retention in the local object storage, for either
-- write-once mode. A put that rewrites a file rewrites its sidecar as a
-- whole, so a put lifts what the sidecar held unless write-once is on.
import BidEvaluation.WormLaws

open dict_lib file_tree stepwise lockstep bid_evaluation.values bid_evaluation.object_storage
  bid_evaluation.object_frames bid_evaluation.worm_laws

namespace bid_evaluation.protection_laws

variable {β : Type} {storage : LocalObjectStorage β} {t t' : FileTree β} {path : Path}
  {storage_uri : String} {now : Time} {fields : PyDict}

/-! ## The sidecar of an object -/

/-- What `_read_meta` returns for the file at a path. -/
def meta_at (storage : LocalObjectStorage β) (path : Path) (t : FileTree β) : Except PyErr PyVal :=
  if fits storage (meta_path path) then
    match lookup t (meta_path path) with
    | some (.file text) => loads_or_default storage text
    | some .directory => .error (.raised "IsADirectoryError" "")
    | none => .ok no_meta
  else .error os_error

theorem read_meta_result (storage : LocalObjectStorage β) (path : Path) (t : FileTree β) :
    (read_meta storage path).result t = meta_at storage path t := by
  have hexists := path_exists_result storage (meta_path path) t
  have hfinal := path_exists_quiet storage (meta_path path) t
  unfold read_meta meta_at
  split at hexists
  · rename_i hfits
    rw [result_bind hexists, hfinal, if_pos hfits]
    have hbytes : (read_bytes (meta_path path) : Act β β).result t =
        content_of (lookup t (meta_path path)) := rfl
    have hsame := (looks_read_bytes (β := β) (List.mem_singleton_self (meta_path path))).final t
    rcases hfound : lookup t (meta_path path) with _ | text | _
    · rfl
    · rw [hfound] at hbytes
      rw [Option.isSome_some, if_pos rfl, result_bind hbytes]
      rfl
    · rw [hfound] at hbytes
      rw [Option.isSome_some, if_pos rfl, result_bind_error hbytes]
  · rename_i hfits
    rw [result_bind_error hexists, if_neg hfits]

/-- The fields of the sidecar, when the object is there and they can be
read. -/
def Sidecar (storage : LocalObjectStorage β) (storage_uri : String) (t : FileTree β)
    (fields : PyDict) : Prop :=
  ∃ path, path_for_uri storage storage_uri = .ok path ∧ fits storage path = true ∧
    (lookup t path).isSome = true ∧ meta_at storage path t = .ok (.dict fields)

/-- An operation that reads the fields of an object that is there. -/
def with_fields {α : Type} (storage : LocalObjectStorage β) (storage_uri : String) (absent : α)
    (f : PyDict → α) : Act β α := do
  let path ← lift (path_for_uri storage storage_uri)
  if ← path_exists storage path then
    let loaded ← read_meta storage path
    let fields ← lift (for_get loaded)
    pure (f fields)
  else pure absent

theorem with_fields_result {α : Type} {absent : α} {f : PyDict → α}
    (h : Sidecar storage storage_uri t fields) :
    (with_fields storage storage_uri absent f).result t = .ok (f fields) := by
  obtain ⟨path, hpath, hfits, hthere, hmeta⟩ := h
  have hexists : (path_exists storage path).result t = .ok true := by
    rw [path_exists_result, if_pos hfits, hthere]
  have hsame := path_exists_quiet storage path t
  have hread : (read_meta storage path).result t = .ok (.dict fields) := (read_meta_result storage path t).trans hmeta
  unfold with_fields
  rw [hpath]
  show (path_exists storage path >>= _).result t = _
  rw [result_bind hexists, hsame, if_pos rfl, result_bind hread]
  rfl

theorem sidecar_of_result {α : Type} {absent a : α} {f : PyDict → α}
    (h : (with_fields storage storage_uri absent f).result t = .ok a) (hne : a ≠ absent) :
    ∃ fields, Sidecar storage storage_uri t fields ∧ a = f fields := by
  unfold with_fields at h
  rcases hpath : path_for_uri storage storage_uri with e | path
  · rw [hpath] at h
    cases h
  rw [hpath] at h
  replace h : (path_exists storage path >>= _).result t = _ := h
  have hexists := path_exists_result storage path t
  have hsame := path_exists_quiet storage path t
  split at hexists
  · rename_i hfits
    rw [result_bind hexists, hsame] at h
    split at h
    · rename_i hthere
      have hread := read_meta_result storage path t
      rcases hmeta : meta_at storage path t with e | loaded
      · rw [result_bind_error (hread.trans hmeta)] at h
        cases h
      · rw [result_bind (hread.trans hmeta)] at h
        cases loaded with
        | dict fields =>
          cases h
          exact ⟨fields, ⟨path, hpath, hfits, hthere, hmeta⟩, rfl⟩
        | _ => cases h
    · cases h
      exact absurd rfl hne
  · rw [result_bind_error hexists] at h
    cases h

/-! ## Holds and ends -/

def Held (storage : LocalObjectStorage β) (storage_uri : String) (t : FileTree β) : Prop :=
  (is_legal_hold_active storage storage_uri).result t = .ok true

def hold_flag (fields : PyDict) : Bool := (fields.getD "legal_hold" (.bool false)).truthy

theorem held_iff : Held storage storage_uri t ↔
    ∃ fields, Sidecar storage storage_uri t fields ∧ hold_flag fields = true := by
  constructor
  · intro h
    have hasked : (with_fields storage storage_uri false hold_flag).result t = .ok true := h
    obtain ⟨fields, hfields, hflag⟩ := sidecar_of_result hasked (by simp)
    exact ⟨fields, hfields, hflag.symm⟩
  · rintro ⟨fields, hfields, hflag⟩
    have hasked : (with_fields storage storage_uri false hold_flag).result t = .ok (hold_flag fields) :=
      with_fields_result hfields
    exact hasked.trans (congrArg Except.ok hflag)

/-- The end of the retention that the address has. -/
def RetainedUntil (storage : LocalObjectStorage β) (storage_uri : String) (t : FileTree β)
    (retain_until : Time) : Prop :=
  ∃ retention, (get_retention storage storage_uri).result t = .ok (some retention) ∧
    end_of storage retention.retain_until = some retain_until

def retention_of (storage : LocalObjectStorage β) (fields : PyDict) : Option Retention :=
  if (fields.get "retention_until").truthy then
    some ⟨fields.getD "retention_mode" (.str storage.retention_mode), fields.get "retention_until"⟩
  else none

theorem get_retention_eq :
    get_retention storage storage_uri = with_fields storage storage_uri none (retention_of storage) := by
  unfold get_retention with_fields retention_of
  congr 1
  funext path
  congr 1
  funext there
  split
  · congr 1
    funext loaded
    congr 1
    funext fields
    dsimp only
    split <;> rfl
  · rfl

def end_in (storage : LocalObjectStorage β) (fields : PyDict) : Option Time :=
  if (fields.get "retention_until").truthy then end_of storage (fields.get "retention_until")
  else none

theorem retained_iff {retain_until : Time} :
    RetainedUntil storage storage_uri t retain_until ↔
      ∃ fields, Sidecar storage storage_uri t fields ∧
        end_in storage fields = some retain_until := by
  unfold RetainedUntil end_in
  rw [get_retention_eq]
  constructor
  · rintro ⟨retention, hresult, hend⟩
    obtain ⟨fields, hfields, hretention⟩ := sidecar_of_result hresult (by simp)
    refine ⟨fields, hfields, ?_⟩
    unfold retention_of at hretention
    split at hretention
    · rename_i htruthy
      cases hretention
      rw [if_pos htruthy]
      exact hend
    · cases hretention
  · rintro ⟨fields, hfields, hend⟩
    split at hend
    · rename_i htruthy
      refine ⟨⟨fields.getD "retention_mode" (.str storage.retention_mode),
        fields.get "retention_until"⟩, (with_fields_result hfields).trans ?_, hend⟩
      rw [retention_of, if_pos htruthy]
    · cases hend

theorem hold_flag_agrees {fields' : PyDict} (h : lookupEntry fields' "legal_hold" =
    lookupEntry fields "legal_hold") : hold_flag fields' = hold_flag fields := by
  unfold hold_flag PyDict.getD
  rw [h]

theorem end_in_agrees {fields' : PyDict} (h : lookupEntry fields' "retention_until" =
    lookupEntry fields "retention_until") : end_in storage fields' = end_in storage fields := by
  unfold end_in PyDict.get PyDict.getD
  rw [h]

/-! ## Writes of a sidecar -/

/-- The sidecar of an object that is there can be written, and then it has
the new fields. -/
theorem sidecar_written (edited : PyDict) (hpath : path_for_uri storage storage_uri = .ok path)
    (hfields : Sidecar storage storage_uri t fields) :
    ∃ t' fields', writeFile t (meta_path path) (storage.library.dumps edited) = some t' ∧
      Sidecar storage storage_uri t' fields' ∧
        ∀ k, lookupEntry fields' k = lookupEntry edited k := by
  obtain ⟨path', hpath', hfits, hthere, hmeta⟩ := hfields
  cases Except.ok.inj (hpath.symm.trans hpath')
  obtain ⟨entry, hentry⟩ := Option.isSome_iff_exists.1 hthere
  obtain ⟨p, hp, -⟩ := Option.bind_eq_some_iff.1 hentry
  have hlocated : locate t (meta_path path) = some (placeOf (meta_path path)) := locate_beside hp
  have hfile : isDirectory t (placeOf (meta_path path)) = false := by
    by_contra hdirectory
    have hfound : lookup t (meta_path path) = some .directory :=
      lookup_directory hlocated (by simpa using hdirectory)
    unfold meta_at at hmeta
    rw [hfound] at hmeta
    split at hmeta
    · cases hmeta
    · cases hmeta
  have hwritten : writeFile t (meta_path path) (storage.library.dumps edited) =
      some (t.set (placeOf (meta_path path)) (.file (storage.library.dumps edited))) :=
    writeFile_some hlocated hfile
  obtain ⟨fields', hloads, hsame⟩ := storage.library.loads_dumps edited
  refine ⟨_, fields', hwritten, ⟨path, hpath, hfits, ?_, ?_⟩, hsame⟩
  · have hspared := (writeFile_spares hwritten).lookup hp (by
      rw [locate_eq hp, Set.mem_singleton_iff]
      exact (placeOf_beside_ne path (by decide)).symm)
    rw [hspared]
    exact hthere
  · have hmetafits : fits storage (meta_path path) = true := by
      unfold meta_at at hmeta
      split at hmeta
      · assumption
      · cases hmeta
    unfold meta_at
    rw [if_pos hmetafits, lookup_written hwritten]
    dsimp only
    unfold loads_or_default
    rw [hloads]

/-- To write the file itself leaves its sidecar. -/
theorem sidecar_of_rewrite {content : β} (hpath : path_for_uri storage storage_uri = .ok path)
    (hfields : Sidecar storage storage_uri t fields) (hwritten : writeFile t path content = some t') :
    Sidecar storage storage_uri t' fields := by
  obtain ⟨path', hpath', hfits, hthere, hmeta⟩ := hfields
  cases Except.ok.inj (hpath.symm.trans hpath')
  obtain ⟨entry, hentry⟩ := Option.isSome_iff_exists.1 hthere
  obtain ⟨p, hp, -⟩ := Option.bind_eq_some_iff.1 hentry
  have hlocated : locate t (meta_path path) = some (placeOf (meta_path path)) := locate_beside hp
  have hspared := (writeFile_spares hwritten).lookup hlocated (by
    rw [Set.mem_singleton_iff]
    exact placeOf_beside_ne path (by decide))
  refine ⟨path, hpath, hfits, ?_, ?_⟩
  · rw [lookup_written hwritten]
    rfl
  · unfold meta_at at hmeta ⊢
    rw [show lookup t' (meta_path path) = lookup t (meta_path path) from hspared]
    exact hmeta

/-- An edit of the sidecar takes effect. -/
theorem write_bytes_done {path : Path} {content : β} {t t' : FileTree β} (hfits : fits storage path = true)
    (hwritten : writeFile t path content = some t') :
    write_bytes storage path content t = ([t'], .ok ()) := by
  have hwritable : (if fits storage path then writeFile t path content else none) = some t' := by
    rw [if_pos hfits, hwritten]
  unfold write_bytes
  simp only [bind, Prog.andThen, stepwise.read, lastState, List.getLast?_nil, Option.getD_none, hwritable]
  rfl

theorem edit_meta_done (edit : PyDict → PyDict) (h : Sidecar storage storage_uri t fields) :
    (edit_meta storage storage_uri edit).result t = .ok true ∧
      ∃ fields', Sidecar storage storage_uri ((edit_meta storage storage_uri edit).final t) fields' ∧
        ∀ k, lookupEntry fields' k = lookupEntry (edit fields) k := by
  have hwhole := h
  obtain ⟨path, hpath, hfits, hthere, hmeta⟩ := h
  obtain ⟨t', fields', hwritten, hsidecar, hsame⟩ := sidecar_written (edit fields) hpath hwhole
  have hexists : (path_exists storage path).result t = .ok true := by
    rw [path_exists_result, if_pos hfits, hthere]
  have hmetafits : fits storage (meta_path path) = true := by
    unfold meta_at at hmeta
    split at hmeta
    · assumption
    · cases hmeta
  have hstill := path_exists_quiet storage path t
  have hread : (read_meta storage path).result t = .ok (.dict fields) := (read_meta_result storage path t).trans hmeta
  have hquiet := read_meta_quiet storage path t
  have hwrite : write_meta storage path (edit fields) t = ([t'], .ok ()) :=
    write_bytes_done hmetafits hwritten
  have hfinal : (edit_meta storage storage_uri edit).final t = t' := by
    unfold edit_meta
    rw [hpath]
    show (path_exists storage path >>= _).final t = _
    rw [final_bind hexists, hstill, if_pos rfl, final_bind hread, hquiet]
    show (write_meta storage path (edit fields) >>= fun _ => pure true).final t = t'
    rw [final_bind_pure]
    show lastState t (write_meta storage path (edit fields) t).1 = t'
    rw [hwrite]
    rfl
  have hresult : (edit_meta storage storage_uri edit).result t = .ok true := by
    have hwritten : (write_meta storage path (edit fields)).result t = .ok () := by
      rw [Prog.result, hwrite]
    unfold edit_meta
    rw [hpath]
    show (path_exists storage path >>= _).result t = _
    rw [result_bind hexists, hstill, if_pos rfl, result_bind hread, hquiet]
    show (write_meta storage path (edit fields) >>= fun _ => pure true).result t = _
    rw [result_bind hwritten]
    rfl
  rw [hfinal]
  exact ⟨hresult, fields', hsidecar, hsame⟩

theorem edit_meta_fields (edit : PyDict → PyDict) (h : Sidecar storage storage_uri t fields) :
    ∃ fields', Sidecar storage storage_uri ((edit_meta storage storage_uri edit).final t) fields' ∧
      ∀ k, lookupEntry fields' k = lookupEntry (edit fields) k := (edit_meta_done edit h).2

/-! ## One call -/

theorem Sidecar.there (h : Sidecar storage storage_uri t fields) :
    ∃ path, path_for_uri storage storage_uri = .ok path ∧ (lookup t path).isSome = true := by
  obtain ⟨path, hpath, -, hthere, -⟩ := h
  exact ⟨path, hpath, hthere⟩

/-- What stays at the paths of an object keeps its sidecar. -/
theorem sidecar_same (h : Sidecar storage storage_uri t fields)
    (hsame : ∀ q ∈ object_paths storage storage_uri, lookup t' q = lookup t q) :
    Sidecar storage storage_uri t' fields := by
  obtain ⟨path, hpath, hfits, hthere, hmeta⟩ := h
  have hpaths : object_paths storage storage_uri = [path, meta_path path] := by
    simp [object_paths, hpath]
  have hfile := hsame path (by simp [hpaths])
  have hsidecar := hsame (meta_path path) (by simp [hpaths])
  refine ⟨path, hpath, hfits, hfile ▸ hthere, ?_⟩
  unfold meta_at at hmeta ⊢
  rw [hsidecar]
  exact hmeta

/-- A call on the address itself, other than a release or a put that
rewrites, leaves a hold that is set. -/
theorem own_call_keeps_hold {timed : Timed β} (hheld : Held storage storage_uri t)
    (hown : target storage timed.call = storage_uri)
    (hrelease : timed.call ≠ .release_legal_hold storage_uri)
    (hput : ∀ args, timed.call = .put_object args → storage.worm_mode = true)
    (hbucket : '/' ∉ storage.bucket.toList) : Held storage storage_uri (next storage t timed) := by
  obtain ⟨fields, hfields, hflag⟩ := held_iff.1 hheld
  obtain ⟨path, hpath, hthere⟩ := hfields.there
  have hedit : ∀ edit : PyDict → PyDict, hold_flag (edit fields) = true →
      Held storage storage_uri
        ((wrap .flag (edit_meta storage storage_uri edit) : Act β (Reply β)).final t) := by
    intro edit hkeeps
    obtain ⟨fields', hsidecar, hsame⟩ := edit_meta_fields edit hfields
    rw [wrap, final_bind_pure]
    exact held_iff.2 ⟨fields', hsidecar, (hold_flag_agrees (hsame _)).trans hkeeps⟩
  have hquiet : ∀ {α : Type} {m : Act β α} {f : α → Reply β}, m.final t = t →
      Held storage storage_uri ((wrap f m).final t) := by
    intro α m f hm
    rw [wrap, final_bind_pure, hm]
    exact hheld
  obtain ⟨clock, call⟩ := timed
  cases call with
  | put_object args =>
    have hkey := path_for_uri_of_key hbucket (key_of storage args)
    rw [show uri_for_key storage (key_of storage args) = storage_uri from hown, hpath] at hkey
    exact hquiet (put_object_quiet _ (hput args rfl) (Except.ok.inj hkey ▸ hthere))
  | delete_object uri =>
    cases hown
    refine hquiet (delete_object_blocked ?_)
    rintro ⟨hfree, -⟩
    cases hheld.symm.trans hfree
  | apply_legal_hold uri =>
    cases hown
    refine hedit _ ?_
    simp [hold_flag, PyDict.getD, PyDict.set, lookupEntry_setEntry, PyVal.truthy]
  | release_legal_hold uri =>
    cases hown
    exact absurd rfl hrelease
  | set_retention uri mode retain_until =>
    cases hown
    refine hedit _ ((hold_flag_agrees ?_).trans hflag)
    simp [PyDict.set, lookupEntry_setEntry]
  | get_object uri => exact hquiet (looks_get_object.final t)
  | is_legal_hold_active uri => exact hquiet (looks_is_legal_hold_active.final t)
  | get_retention uri => exact hquiet (looks_get_retention.final t)
  | is_retention_active uri moment => exact hquiet (looks_is_retention_active.final t)

/-- The retention of a put made at a time ends no sooner. -/
def EndsNoSooner (storage : LocalObjectStorage β) (now retain_until : Time) : Prop :=
  0 < storage.retention_days ∧
    ∀ renewed, storage.library.plus_days now storage.retention_days = some renewed →
      retain_until ≤ renewed

theorem put_meta_end {retain_until : Time} {content_type : Option String}
    (h : EndsNoSooner storage now retain_until)
    (hfields : put_meta storage now content_type = .ok fields) :
    ∃ renewed, end_in storage fields = some renewed ∧ retain_until ≤ renewed := by
  unfold put_meta at hfields
  rw [if_pos h.1] at hfields
  split at hfields
  · rename_i renewed hrenewed
    cases hfields
    refine ⟨renewed, ?_, h.2 renewed hrenewed⟩
    obtain ⟨hne, hread⟩ := storage.library.isoformat_read renewed
    simp [end_in, end_of, PyDict.get, PyDict.getD, PyDict.set, lookupEntry_setEntry, PyVal.truthy,
      hne, hread]
  · cases hfields

/-- A put on an object that is there renews a retention that it does not
shorten. -/
theorem put_object_keeps_end {args : PutArgs β} {retain_until : Time}
    (hbucket : '/' ∉ storage.bucket.toList)
    (hretained : RetainedUntil storage (address storage args) t retain_until)
    (hput : storage.worm_mode = true ∨ EndsNoSooner storage now retain_until) :
    ∃ renewed, RetainedUntil storage (address storage args)
      ((put_object storage now args).final t) renewed ∧ retain_until ≤ renewed := by
  have hpath : path_for_uri storage (address storage args) =
      .ok (path_for_key storage (key_of storage args)) := path_for_uri_of_key hbucket _
  obtain ⟨fields, hfields, hend⟩ := retained_iff.1 hretained
  obtain ⟨path', hpath', hthere⟩ := hfields.there
  cases Except.ok.inj (hpath.symm.trans hpath')
  rcases hput with hworm | hput
  · rw [put_object_quiet _ hworm hthere]
    exact ⟨retain_until, hretained, le_refl _⟩
  generalize hkey : path_for_key storage (key_of storage args) = path at hpath hthere
  let R : FileTree β → FileTree β → Prop := fun a b =>
    (∃ renewed, RetainedUntil storage (address storage args) a renewed ∧ retain_until ≤ renewed) →
      ∃ renewed, RetainedUntil storage (address storage args) b renewed ∧ retain_until ≤ renewed
  have hmkdir : Keeps R (mkdir storage path.dropLast) := by
    refine keeps_ite (keeps_of_read fun a => ?_) (keeps_raise _)
    have hmade : R a (makeDirs a path.dropLast).1 := by
      rintro ⟨renewed, hretained, hle⟩
      obtain ⟨fields, hsidecar, -⟩ := retained_iff.1 hretained
      obtain ⟨path', hpath', hthere⟩ := hsidecar.there
      cases Except.ok.inj (hpath.symm.trans hpath')
      rw [makeDirs_above hthere]
      exact ⟨renewed, hretained, hle⟩
    split
    · exact ⟨hmade, trivial⟩
    · exact ⟨hmade, trivial⟩
  have hwrite : Keeps R (write_bytes storage path args.content_bytes) := by
    refine keeps_of_read fun a => ?_
    split
    · rename_i b hwritten
      refine ⟨?_, trivial⟩
      split at hwritten
      · rintro ⟨renewed, hretained, hle⟩
        obtain ⟨fields, hsidecar, hend⟩ := retained_iff.1 hretained
        refine ⟨renewed, retained_iff.2 ⟨fields, ?_, hend⟩, hle⟩
        exact sidecar_of_rewrite hpath hsidecar hwritten
      · cases hwritten
    · trivial
  have hmeta : ∀ fields, put_meta storage now args.content_type = .ok fields →
      Keeps R (write_meta storage path fields) := by
    intro edited hedited
    refine keeps_of_read fun a => ?_
    split
    · rename_i b hwritten
      refine ⟨?_, trivial⟩
      split at hwritten
      · rintro ⟨renewed, hretained, hle⟩
        obtain ⟨fields, hsidecar, -⟩ := retained_iff.1 hretained
        obtain ⟨b', fields', hwritten', hsidecar', hsame⟩ :=
          sidecar_written edited hpath hsidecar
        cases Option.some.inj (hwritten.symm.trans hwritten')
        obtain ⟨renewed', hend', hle'⟩ := put_meta_end hput hedited
        exact ⟨renewed', retained_iff.2 ⟨fields', hsidecar', (end_in_agrees (hsame _)).trans hend'⟩, hle'⟩
      · cases hwritten
    · trivial
  have hkeeps : Keeps R (put_object storage now args) := by
    unfold put_object
    dsimp only
    rw [hkey]
    refine keeps_bind keeps_path_exists fun _ => keeps_ite (keeps_pure _) ?_
    refine keeps_bind ?_ fun _ => keeps_pure _
    refine keeps_bind hmkdir fun _ => keeps_bind hwrite fun _ => ?_
    rcases hput_meta : put_meta storage now args.content_type with e | edited
    · exact fun _ => trivial
    · exact hmeta edited hput_meta
  exact hkeeps.final (fun _ h => h) (fun _ _ _ hab hbc h => hbc (hab h)) t
    ⟨retain_until, hretained, le_refl _⟩

/-! ## A delete that raises -/

/-- Fields that were asked for could be read, if the object is there. -/
theorem readable_of_result {α : Type} {absent a : α} {f : PyDict → α}
    (h : (with_fields storage storage_uri absent f).result t = .ok a) :
    ∃ path, path_for_uri storage storage_uri = .ok path ∧ fits storage path = true ∧
      ((lookup t path).isSome = true → ∃ fields, meta_at storage path t = .ok (.dict fields)) := by
  unfold with_fields at h
  rcases hpath : path_for_uri storage storage_uri with e | path
  · rw [hpath] at h
    cases h
  rw [hpath] at h
  replace h : (path_exists storage path >>= _).result t = _ := h
  have hexists := path_exists_result storage path t
  have hsame := path_exists_quiet storage path t
  split at hexists
  · rename_i hfits
    refine ⟨path, rfl, hfits, fun hthere => ?_⟩
    rw [result_bind hexists, hsame, if_pos hthere] at h
    have hread := read_meta_result storage path t
    rcases hmeta : meta_at storage path t with e | loaded
    · rw [result_bind_error (hread.trans hmeta)] at h
      cases h
    · rw [result_bind (hread.trans hmeta)] at h
      cases loaded with
      | dict fields => exact ⟨fields, rfl⟩
      | _ => cases h
  · rw [result_bind_error hexists] at h
    cases h

theorem unlink_path_result (path : Path) (t : FileTree β) :
    unlink_path path t = match unlink t path with
      | some t' => ([t'], .ok ())
      | none => ([], .error os_error) := by
  show (match unlink t path with
    | some t' => write fun _ => t'
    | none => raise os_error : Act β Unit) t = _
  rcases unlink t path with _ | t'
  · rfl
  · rfl

/-- The sidecar that was readable can be removed after the file. -/
theorem unlink_if_there_returns (hfile : unlink t path = some t')
    (hmeta : ∃ fields, meta_at storage path t = .ok (.dict fields)) :
    (unlink_if_there storage (meta_path path)).result t' = .ok () := by
  obtain ⟨fields, hmeta⟩ := hmeta
  have hspares := unlink_spares hfile
  obtain ⟨p, hp, -⟩ := Option.bind_eq_some_iff.1 hfile
  have hlocated : locate t (meta_path path) = some (placeOf (meta_path path)) := locate_beside hp
  have hsame : lookup t' (meta_path path) = lookup t (meta_path path) :=
    hspares.lookup hlocated (placeOf_beside_ne path (by decide))
  unfold meta_at at hmeta
  split at hmeta
  · rename_i hfits
    have hexists := path_exists_result storage (meta_path path) t'
    have hfinal := path_exists_quiet storage (meta_path path) t'
    rw [if_pos hfits, hsame] at hexists
    unfold unlink_if_there
    rw [result_bind hexists, hfinal]
    rcases hfound : lookup t (meta_path path) with _ | text | _
    · rfl
    · rw [hfound] at hsame
      rw [Option.isSome_some, if_pos rfl]
      unfold Prog.result
      rw [unlink_path_result, unlink_some (hspares.locate hlocated) hsame]
    · rw [hfound] at hmeta
      cases hmeta
  · cases hmeta

/-- A delete that raises leaves all files. -/
theorem delete_object_raises {e : PyErr}
    (h : (delete_object storage now storage_uri).result t = .error e) :
    (delete_object storage now storage_uri).final t = t := by
  by_contra hne
  have hallowed : DeleteAllowed storage now storage_uri t := by
    by_contra hno
    exact hne (delete_object_blocked hno)
  obtain ⟨hfree, hover⟩ := hallowed
  have hhold := is_legal_hold_active_quiet storage storage_uri t
  have hretention := is_retention_active_quiet storage storage_uri now t
  have hasked : (with_fields storage storage_uri false hold_flag).result t = .ok false := hfree
  obtain ⟨path, hpath, hfits, hmeta⟩ := readable_of_result hasked
  have hexists := path_exists_result storage path t
  have hsame := path_exists_quiet storage path t
  rw [if_pos hfits] at hexists
  unfold delete_object at h hne
  rw [result_bind hfree, hhold, if_neg (by simp), result_bind hover, hretention, if_neg (by simp),
    hpath] at h
  rw [final_bind hfree, hhold, if_neg (by simp), final_bind hover, hretention, if_neg (by simp),
    hpath] at hne
  replace h : (path_exists storage path >>= _).result t = _ := h
  replace hne : ¬ (path_exists storage path >>= _).final t = t := hne
  rw [result_bind hexists, hsame] at h
  rw [final_bind hexists, hsame] at hne
  split at h
  · rename_i hthere
    rw [if_pos hthere] at hne
    have hunlink := unlink_path_result path t
    rcases hfile : unlink t path with _ | t'
    · rw [hfile] at hunlink
      have hresult : (unlink_path path : Act β Unit).result t = .error os_error := by
        rw [Prog.result, hunlink]
      rw [final_bind_error hresult] at hne
      exact hne (by rw [Prog.final, hunlink]; rfl)
    · rw [hfile] at hunlink
      have hresult : (unlink_path path : Act β Unit).result t = .ok () := by
        rw [Prog.result, hunlink]
      have hfinal : (unlink_path path : Act β Unit).final t = t' := by
        rw [Prog.final, hunlink]
        rfl
      rw [result_bind hresult, hfinal, result_bind (unlink_if_there_returns hfile (hmeta hthere))] at h
      cases h
  · cases h

/-! ## Runs -/

/-- What each step of a run has to meet. While a hold is set, no call on
another address writes the object's file or its sidecar. A put on the address
finds write-once on, or no hold and no retention that it would shorten. -/
structure Cautious (storage : LocalObjectStorage β) (storage_uri : String) (t : FileTree β)
    (timed : Timed β) : Prop where
  others : Held storage storage_uri t → target storage timed.call ≠ storage_uri →
    Apart storage storage_uri t timed.call
  rewrite : ∀ args, timed.call = .put_object args → address storage args = storage_uri →
    storage.worm_mode = true ∨ ¬ Held storage storage_uri t ∧
      ∀ retain_until, RetainedUntil storage storage_uri t retain_until →
        timed.now < retain_until → EndsNoSooner storage timed.now retain_until

theorem held_after_call {timed : Timed β} (hbucket : '/' ∉ storage.bucket.toList)
    (hcautious : Cautious storage storage_uri t timed) (hheld : Held storage storage_uri t)
    (hrelease : timed.call ≠ .release_legal_hold storage_uri) :
    Held storage storage_uri (next storage t timed) := by
  by_cases hown : target storage timed.call = storage_uri
  · refine own_call_keeps_hold hheld hown hrelease (fun args hcall => ?_) hbucket
    rw [hcall] at hown
    rcases hcautious.rewrite args hcall hown with hworm | ⟨hfree, -⟩
    · exact hworm
    · exact absurd hheld hfree
  · obtain ⟨fields, hfields, hflag⟩ := held_iff.1 hheld
    obtain ⟨path, hpath, hthere⟩ := hfields.there
    have hsame := same_of_apart hpath hthere (hcautious.others hheld hown)
    exact held_iff.2 ⟨fields, sidecar_same hfields hsame, hflag⟩

/-- In a run of cautious steps only a release on the address clears a hold,
and no put on the address cuts a retention that is active. -/
theorem protection_stays {calls : List (Timed β)} (hbucket : '/' ∉ storage.bucket.toList)
    (hcalls : Throughout (machine storage t) (Cautious storage storage_uri) calls) :
    ∀ before timed, before ++ [timed] <+: calls →
      (Held storage storage_uri ((machine storage t).after before) →
        timed.call ≠ .release_legal_hold storage_uri →
          Held storage storage_uri ((machine storage t).after (before ++ [timed]))) ∧
      ∀ args retain_until, timed.call = .put_object args → address storage args = storage_uri →
        RetainedUntil storage storage_uri ((machine storage t).after before) retain_until →
          timed.now < retain_until →
            ∃ renewed, RetainedUntil storage storage_uri
              ((machine storage t).after (before ++ [timed])) renewed ∧ retain_until ≤ renewed := by
  intro before timed hpart
  have hcautious := hcalls before timed hpart
  rw [Machine.after_concat]
  refine ⟨held_after_call hbucket hcautious, ?_⟩
  rintro args retain_until hcall rfl hretained hactive
  have hput := (hcautious.rewrite args hcall rfl).imp_right fun h => h.2 _ hretained hactive
  obtain ⟨renewed, hrenewed, hle⟩ := put_object_keeps_end hbucket hretained hput
  refine ⟨renewed, ?_, hle⟩
  show RetainedUntil storage _ ((timed.call.act storage timed.now).final _) renewed
  rw [hcall]
  show RetainedUntil storage _ ((wrap Reply.uri (put_object storage timed.now args)).final _) renewed
  rw [wrap, final_bind_pure]
  exact hrenewed

/-- Without write-once, and with no retention of its own. -/
def loose_storage : LocalObjectStorage FileText :=
  .init plain_library 255 ⟨"bea", ["tmp", "bea-object-storage"], "", false, 0, "GOVERNANCE"⟩

def bid_address : String := address loose_storage (document "bid.pdf" "bid")

def bid_files : FileTree FileText :=
  (since loose_storage 0 (document "bid.pdf" "bid") Dict.empty).start

theorem delete_leaves_hold :
    Held loose_storage bid_address ((machine loose_storage bid_files).after
      [⟨1, .apply_legal_hold bid_address⟩, ⟨2, .delete_object bid_address⟩]) := by
  have hheld : Held loose_storage bid_address ((machine loose_storage bid_files).after
      [⟨1, .apply_legal_hold bid_address⟩]) := by
    unfold Held
    decide +kernel
  have hcalls : Throughout (machine loose_storage bid_files) (Cautious loose_storage bid_address)
      [⟨1, .apply_legal_hold bid_address⟩, ⟨2, .delete_object bid_address⟩] := by
    refine throughout_concat [_] (throughout_concat [] (throughout_nil _ _) ?_) ?_
    · exact ⟨fun _ hne => absurd rfl hne, fun _ h => by cases h⟩
    · exact ⟨fun _ hne => absurd rfl hne, fun _ h => by cases h⟩
  exact (protection_stays (by decide) hcalls [_] _ (List.prefix_refl _)).1 hheld (by simp)

/-- A second put of the same document clears the hold, and it drops a
retention that ends later. -/
theorem put_lifts_protection :
    let files := machine loose_storage bid_files
    let held := [⟨1, .apply_legal_hold bid_address⟩]
    let retained := [⟨1, .set_retention bid_address "GOVERNANCE" 100⟩]
    let put := [⟨2, .put_object (document "bid.pdf" "other")⟩]
    (is_legal_hold_active loose_storage bid_address).result (files.after held) = .ok true ∧
      (is_legal_hold_active loose_storage bid_address).result (files.after (held ++ put)) =
        .ok false ∧
      (is_retention_active loose_storage bid_address 2).result (files.after retained) = .ok true ∧
      (is_retention_active loose_storage bid_address 2).result (files.after (retained ++ put)) =
        .ok false := by
  decide +kernel

end bid_evaluation.protection_laws
