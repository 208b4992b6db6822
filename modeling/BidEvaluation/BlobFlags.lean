-- The flag of a blob as it is in the sidecar file, and what a put, an edit of
-- the sidecar and a delete do to it. A put that raises can leave the file
-- without a new sidecar.
import BidEvaluation.BlobPlaces
import BidEvaluation.ProtectionLaws

open dict_lib file_tree stepwise bid_evaluation.values bid_evaluation.object_storage
  bid_evaluation.object_frames bid_evaluation.worm_laws bid_evaluation.protection_laws
  bid_evaluation.blob_places

namespace bid_evaluation.blob_flags

variable {β : Type} {storage : LocalObjectStorage β} {t t' : FileTree β} {path : Path}
  {storage_uri : String} {now : Time} {args : PutArgs β}

/-! ## Files and flags -/

/-- A file is at the place of the blob. -/
def There (storage : LocalObjectStorage β) (storage_uri : String) (t : FileTree β) : Prop :=
  ∃ path content, path_for_uri storage storage_uri = .ok path ∧
    t.get? (placeOf path) = some (.file content)

/-- The file at the place of the sidecar has the flag. -/
def Flagged (storage : LocalObjectStorage β) (storage_uri : String) (t : FileTree β) : Prop :=
  ∃ path text fields, path_for_uri storage storage_uri = .ok path ∧
    t.get? (placeOf (meta_path path)) = some (.file text) ∧
    loads_or_default storage text = .ok (.dict fields) ∧ hold_flag fields = true

/-- What stands at the two places of the blob can be read through its paths,
and a sidecar with the flag has its file. -/
structure Whole (storage : LocalObjectStorage β) (storage_uri : String) (t : FileTree β) : Prop where
  file : ∀ path content, path_for_uri storage storage_uri = .ok path →
    t.get? (placeOf path) = some (.file content) →
      fits storage path = true ∧ (lookup t path).isSome = true
  sidecar : ∀ path text, path_for_uri storage storage_uri = .ok path →
    t.get? (placeOf (meta_path path)) = some (.file text) → fits storage (meta_path path) = true
  flag : ∀ path, path_for_uri storage storage_uri = .ok path → Flagged storage storage_uri t →
    fits storage path = true ∧ (lookup t path).isSome = true

theorem lookup_file {content : β} (h : lookup t path = some (.file content)) :
    t.get? (placeOf path) = some (.file content) := by
  obtain ⟨p, hp, hget⟩ := Option.bind_eq_some_iff.1 h
  cases locate_eq hp
  split at hget
  · cases hget
  · exact hget

theorem sidecar_place_ne (path : Path) : placeOf (meta_path path) ≠ [] := by
  unfold meta_path beside
  rw [placeOf_concat, enter, if_neg (meta_name_ne _)]
  exact List.append_ne_nil_of_right_ne_nil _ (List.cons_ne_nil _ [])

theorem lookup_sidecar {text : β} (hthere : (lookup t path).isSome = true)
    (hget : t.get? (placeOf (meta_path path)) = some (.file text)) :
    lookup t (meta_path path) = some (.file text) := by
  obtain ⟨entry, hentry⟩ := Option.isSome_iff_exists.1 hthere
  obtain ⟨p, hp, -⟩ := Option.bind_eq_some_iff.1 hentry
  have hlocated : locate t (meta_path path) = some (placeOf (meta_path path)) := locate_beside hp
  rw [lookup, hlocated, Option.bind_some, if_neg (sidecar_place_ne path), hget]

theorem sidecar_file {fields : PyDict} (hmeta : meta_at storage path t = .ok (.dict fields))
    (hflag : hold_flag fields = true) :
    ∃ text, lookup t (meta_path path) = some (.file text) ∧
      loads_or_default storage text = .ok (.dict fields) := by
  unfold meta_at at hmeta
  split at hmeta
  · rcases hfound : lookup t (meta_path path) with _ | text | _
    · rw [hfound] at hmeta
      cases hmeta
      cases hflag
    · rw [hfound] at hmeta
      exact ⟨text, rfl, hmeta⟩
    · rw [hfound] at hmeta
      cases hmeta
  · cases hmeta

/-- The storage finds the flag of a blob exactly when it is in the sidecar. -/
theorem Whole.held_iff (h : Whole storage storage_uri t) :
    Held storage storage_uri t ↔ Flagged storage storage_uri t := by
  rw [protection_laws.held_iff]
  constructor
  · rintro ⟨fields, ⟨path, hpath, -, -, hmeta⟩, hflag⟩
    obtain ⟨text, hfound, hloads⟩ := sidecar_file hmeta hflag
    exact ⟨path, text, fields, hpath, lookup_file hfound, hloads, hflag⟩
  · rintro ⟨path, text, fields, hpath, hget, hloads, hflag⟩
    obtain ⟨hfits, hthere⟩ := h.flag path hpath ⟨path, text, fields, hpath, hget, hloads, hflag⟩
    refine ⟨fields, ⟨path, hpath, hfits, hthere, ?_⟩, hflag⟩
    unfold meta_at
    rw [if_pos (h.sidecar path text hpath hget), lookup_sidecar hthere hget]
    exact hloads

theorem Flagged.of_sidecar {fields : PyDict} (h : Sidecar storage storage_uri t fields)
    (hflag : hold_flag fields = true) : Flagged storage storage_uri t := by
  obtain ⟨path, hpath, -, -, hmeta⟩ := h
  obtain ⟨text, hfound, hloads⟩ := sidecar_file hmeta hflag
  exact ⟨path, text, fields, hpath, lookup_file hfound, hloads, hflag⟩

/-- A sidecar that is read says whether the flag is there. -/
theorem not_flagged_of_sidecar {fields : PyDict} (h : Sidecar storage storage_uri t fields)
    (hflag : hold_flag fields = false) : ¬Flagged storage storage_uri t := by
  rintro ⟨path', text, fields', hpath', hget, hloads, hflag'⟩
  obtain ⟨path, hpath, -, hthere, hmeta⟩ := h
  cases Except.ok.inj (hpath.symm.trans hpath')
  unfold meta_at at hmeta
  rw [lookup_sidecar hthere hget] at hmeta
  split at hmeta
  · cases Except.ok.inj (hloads.symm.trans hmeta)
    rw [hflag] at hflag'
    cases hflag'
  · cases hmeta

/-! ## Changes elsewhere -/

theorem There.mono (h : There storage storage_uri t)
    (hfiles : ∀ path content, path_for_uri storage storage_uri = .ok path →
      t.get? (placeOf path) = some (.file content) →
        ∃ content', t'.get? (placeOf path) = some (.file content')) :
    There storage storage_uri t' := by
  obtain ⟨path, content, hpath, hget⟩ := h
  obtain ⟨content', hget'⟩ := hfiles path content hpath hget
  exact ⟨path, content', hpath, hget'⟩

theorem places_of_path (hpath : path_for_uri storage storage_uri = .ok path) :
    object_places storage storage_uri = [placeOf path, placeOf (meta_path path)] := by
  simp [object_places, object_paths, hpath]

section elsewhere

variable {S : Set Place} (h : KeepsFiles S t t')
  (hout : ∀ p ∈ object_places storage storage_uri, p ∉ S)

include h hout

theorem there_elsewhere : There storage storage_uri t' ↔ There storage storage_uri t := by
  have hsame : ∀ path content, path_for_uri storage storage_uri = .ok path →
      (t'.get? (placeOf path) = some (.file content) ↔ t.get? (placeOf path) = some (.file content)) := by
    intro path content hpath
    exact h.same _ (hout _ (by simp [places_of_path hpath])) content
  constructor
  · rintro ⟨path, content, hpath, hget⟩
    exact ⟨path, content, hpath, (hsame path content hpath).1 hget⟩
  · rintro ⟨path, content, hpath, hget⟩
    exact ⟨path, content, hpath, (hsame path content hpath).2 hget⟩

theorem flagged_elsewhere : Flagged storage storage_uri t' ↔ Flagged storage storage_uri t := by
  have hsame : ∀ path text, path_for_uri storage storage_uri = .ok path →
      (t'.get? (placeOf (meta_path path)) = some (.file text) ↔
        t.get? (placeOf (meta_path path)) = some (.file text)) := by
    intro path text hpath
    exact h.same _ (hout _ (by simp [places_of_path hpath])) text
  constructor
  · rintro ⟨path, text, fields, hpath, hget, hrest⟩
    exact ⟨path, text, fields, hpath, (hsame path text hpath).1 hget, hrest⟩
  · rintro ⟨path, text, fields, hpath, hget, hrest⟩
    exact ⟨path, text, fields, hpath, (hsame path text hpath).2 hget, hrest⟩

theorem Whole.elsewhere (hwhole : Whole storage storage_uri t) : Whole storage storage_uri t' where
  file path content hpath hget := by
    have hbefore := (h.same _ (hout _ (by simp [places_of_path hpath])) content).1 hget
    obtain ⟨hfits, hthere⟩ := hwhole.file path content hpath hbefore
    exact ⟨hfits, h.still_there hthere fun _ _ => by rw [hget]; rfl⟩
  sidecar path text hpath hget :=
    hwhole.sidecar path text hpath
      ((h.same _ (hout _ (by simp [places_of_path hpath])) text).1 hget)
  flag path hpath hflagged := by
    obtain ⟨hfits, hthere⟩ := hwhole.flag path hpath ((flagged_elsewhere h hout).1 hflagged)
    refine ⟨hfits, h.still_there hthere fun content hget => ?_⟩
    rw [(h.same _ (hout _ (by simp [places_of_path hpath])) content).2 hget]
    rfl

end elsewhere

/-- Where no files are, all is whole. -/
theorem Whole.of_empty (h : ∀ p ∈ object_places storage storage_uri, ∀ content,
    t.get? p ≠ some (.file content)) : Whole storage storage_uri t where
  file path content hpath hget := absurd hget (h _ (by simp [places_of_path hpath]) content)
  sidecar path text hpath hget := absurd hget (h _ (by simp [places_of_path hpath]) text)
  flag path hpath hflagged := by
    obtain ⟨path', text, fields, hpath', hget, -⟩ := hflagged
    exact absurd hget (h _ (by simp [places_of_path hpath']) text)

theorem Flagged.file (h : Flagged storage storage_uri t) :
    ∃ p ∈ object_places storage storage_uri, ∃ content, t.get? p = some (.file content) := by
  obtain ⟨path, text, fields, hpath, hget, -⟩ := h
  exact ⟨_, by simp [places_of_path hpath], text, hget⟩

theorem There.file (h : There storage storage_uri t) :
    ∃ p ∈ object_places storage storage_uri, ∃ content, t.get? p = some (.file content) := by
  obtain ⟨path, content, hpath, hget⟩ := h
  exact ⟨_, by simp [places_of_path hpath], content, hget⟩

/-! ## Edits -/

/-- An edit finds a sidecar that it can read, or it changes nothing. -/
theorem edit_meta_quiet {edit : PyDict → PyDict}
    (h : ¬∃ fields, Sidecar storage storage_uri t fields) :
    (edit_meta storage storage_uri edit).final t = t ∧
      ∀ done, (edit_meta storage storage_uri edit).result t = .ok done →
        ∃ path, path_for_uri storage storage_uri = .ok path ∧ lookup t path = none := by
  unfold edit_meta
  rcases hpath : path_for_uri storage storage_uri with e | path
  · exact ⟨rfl, fun _ hdone => by cases hdone⟩
  have hexists := path_exists_result storage path t
  have hsame := path_exists_quiet storage path t
  show (path_exists storage path >>= _).final t = t ∧
    ∀ done, (path_exists storage path >>= _).result t = .ok done → _
  split at hexists
  · rename_i hfits
    rw [result_bind hexists, final_bind hexists, hsame]
    split
    · rename_i hthere
      have hread := read_meta_result storage path t
      have hquiet := read_meta_quiet storage path t
      rcases hmeta : meta_at storage path t with e | loaded
      · rw [hmeta] at hread
        rw [result_bind_error hread, final_bind_error hread, hquiet]
        exact ⟨rfl, fun _ hdone => by cases hdone⟩
      · rw [hmeta] at hread
        rw [result_bind hread, final_bind hread, hquiet]
        cases loaded with
        | dict fields => exact absurd ⟨fields, path, hpath, hfits, hthere, hmeta⟩ h
        | _ => exact ⟨rfl, fun _ hdone => by cases hdone⟩
    · rename_i hthere
      exact ⟨rfl, fun _ _ => ⟨path, rfl, by simpa using hthere⟩⟩
  · rw [result_bind_error hexists, final_bind_error hexists, hsame]
    exact ⟨rfl, fun _ hdone => by cases hdone⟩

theorem edit_meta_keeps_files (edit : PyDict → PyDict) (t : FileTree β) :
    KeepsFiles {p | p ∈ object_places storage storage_uri} t
      ((edit_meta storage storage_uri edit).final t) := by
  have hspares : Spares {p | p ∈ sidecar_places storage storage_uri} t
      ((edit_meta storage storage_uri edit).final t) :=
    (edit_meta_spares edit).final Spares.refl (fun _ _ _ => Spares.trans) t
  refine hspares.keeps_files.mono fun p hp => ?_
  have hsidecar : p ∈ sidecar_places storage storage_uri := hp
  unfold sidecar_places at hsidecar
  split at hsidecar
  · rename_i path hpath
    rw [List.mem_singleton] at hsidecar
    show p ∈ object_places storage storage_uri
    rw [places_of_path hpath, hsidecar]
    exact List.mem_cons_of_mem _ List.mem_cons_self
  · cases hsidecar

/-- The file of the blob is not touched by an edit of its sidecar. -/
theorem there_edited (edit : PyDict → PyDict) :
    There storage storage_uri ((edit_meta storage storage_uri edit).final t) ↔
      There storage storage_uri t := by
  have hsame : ∀ path, path_for_uri storage storage_uri = .ok path →
      ((edit_meta storage storage_uri edit).final t).get? (placeOf path) = t.get? (placeOf path) := by
    intro path hpath
    have hspares : Spares {p | p ∈ sidecar_places storage storage_uri} t
        ((edit_meta storage storage_uri edit).final t) :=
      (edit_meta_spares edit).final Spares.refl (fun _ _ _ => Spares.trans) t
    refine hspares.same _ ?_
    simp only [sidecar_places, hpath, Set.mem_ofPred_eq, List.mem_singleton]
    exact (placeOf_beside_ne path (by decide)).symm
  constructor
  · rintro ⟨path, content, hpath, hget⟩
    exact ⟨path, content, hpath, hsame path hpath ▸ hget⟩
  · rintro ⟨path, content, hpath, hget⟩
    exact ⟨path, content, hpath, (hsame path hpath).symm ▸ hget⟩

/-- A blob with a sidecar that can be read has a path that leads to it. -/
theorem Whole.edited (h : Whole storage storage_uri t) (edit : PyDict → PyDict) :
    Whole storage storage_uri ((edit_meta storage storage_uri edit).final t) := by
  by_cases hsidecar : ∃ fields, Sidecar storage storage_uri t fields
  · obtain ⟨fields, hfields⟩ := hsidecar
    obtain ⟨-, fields', ⟨path, hpath, hfits, hthere, hmeta⟩, -⟩ :=
      edit_meta_done edit hfields
    have hmetafits : fits storage (meta_path path) = true := by
      unfold meta_at at hmeta
      split at hmeta
      · assumption
      · cases hmeta
    refine ⟨fun path' _ hpath' _ => ?_, fun path' _ hpath' _ => ?_, fun path' hpath' _ => ?_⟩ <;>
      cases Except.ok.inj (hpath.symm.trans hpath')
    · exact ⟨hfits, hthere⟩
    · exact hmetafits
    · exact ⟨hfits, hthere⟩
  · rw [(edit_meta_quiet hsidecar).1]
    exact h

theorem hold_flag_set (fields : PyDict) (b : Bool) (key : String) (value : PyVal)
    (hkey : key ≠ "legal_hold") :
    hold_flag ((fields.set "legal_hold" (.bool b)).set key value) = b := by
  simp [hold_flag, PyDict.getD, PyDict.set, lookupEntry_setEntry, PyVal.truthy, hkey.symm]

/-- An apply that returns has set the flag of a blob that is there. -/
theorem applied (h : Whole storage storage_uri t) {done : Bool}
    (hdone : (apply_legal_hold storage now storage_uri).result t = .ok done)
    (hthere : There storage storage_uri t) :
    Flagged storage storage_uri ((apply_legal_hold storage now storage_uri).final t) := by
  unfold apply_legal_hold at hdone ⊢
  by_cases hsidecar : ∃ fields, Sidecar storage storage_uri t fields
  · obtain ⟨fields, hfields⟩ := hsidecar
    obtain ⟨fields', hfields', hsame⟩ := edit_meta_fields
      (fun fields => (fields.set "legal_hold" (.bool true)).set "legal_hold_at"
        (.str (storage.library.isoformat now))) hfields
    refine .of_sidecar hfields' ((hold_flag_agrees (hsame _)).trans ?_)
    exact hold_flag_set fields true "legal_hold_at" _ (by decide)
  · obtain ⟨path, hpath, hnone⟩ := (edit_meta_quiet hsidecar).2 done hdone
    obtain ⟨path', content, hpath', hget⟩ := hthere
    cases Except.ok.inj (hpath.symm.trans hpath')
    have hfound := (h.file path content hpath hget).2
    rw [hnone] at hfound
    cases hfound

/-- After a release the flag is not set. -/
theorem released_flag (h : Whole storage storage_uri t) :
    ¬Flagged storage storage_uri
      ((object_storage.release_legal_hold storage now storage_uri).final t) := by
  unfold object_storage.release_legal_hold
  by_cases hsidecar : ∃ fields, Sidecar storage storage_uri t fields
  · obtain ⟨fields, hfields⟩ := hsidecar
    obtain ⟨fields', hfields', hsame⟩ := edit_meta_fields
      (fun fields => (fields.set "legal_hold" (.bool false)).set "legal_hold_released_at"
        (.str (storage.library.isoformat now))) hfields
    refine not_flagged_of_sidecar hfields' ((hold_flag_agrees (hsame _)).trans ?_)
    exact hold_flag_set fields false "legal_hold_released_at" _ (by decide)
  · rw [(edit_meta_quiet hsidecar).1]
    intro hflagged
    obtain ⟨fields, hfields, -⟩ := protection_laws.held_iff.1 (h.held_iff.2 hflagged)
    exact hsidecar ⟨fields, hfields⟩

theorem edit_meta_raises {edit : PyDict → PyDict} {e : PyErr}
    (h : (edit_meta storage storage_uri edit).result t = .error e) :
    (edit_meta storage storage_uri edit).final t = t := by
  refine (edit_meta_quiet ?_).1
  rintro ⟨fields, hfields⟩
  rw [(edit_meta_done edit hfields).1] at h
  cases h

/-! ## Puts -/

def put_path (storage : LocalObjectStorage β) (args : PutArgs β) : Path :=
  path_for_key storage (key_of storage args)

/-- The files once the directories of the blob are made. -/
def with_folder (storage : LocalObjectStorage β) (args : PutArgs β) (t : FileTree β) : FileTree β :=
  (makeDirs t (put_path storage args).dropLast).1

/-- The sidecar of a put can be made, and written where the file can. -/
structure SidecarFits (storage : LocalObjectStorage β) (now : Time) (args : PutArgs β) (t : FileTree β) :
    Prop where
  fields : ∃ fields, put_meta storage now args.content_type = .ok fields
  name : fits storage (meta_path (put_path storage args)) = true
  free : isDirectory (with_folder storage args t) (placeOf (meta_path (put_path storage args))) = false

/-- How a put can end. One that raises has left the files as they were, or
made directories, or written the file without its sidecar. -/
inductive PutEnds (storage : LocalObjectStorage β) (now : Time) (args : PutArgs β) (t : FileTree β) :
    Except PyErr String → FileTree β → Prop where
  | refused (e : PyErr) : PutEnds storage now args t (.error e) t
  | kept (hthere : (lookup t (put_path storage args)).isSome = true) :
      PutEnds storage now args t (.ok (address storage args)) t
  | directories (e : PyErr) : PutEnds storage now args t (.error e) (with_folder storage args t)
  | content (e : PyErr) (t' : FileTree β) (hfits : fits storage (put_path storage args) = true)
      (hwritten : writeFile (with_folder storage args t) (put_path storage args) args.content_bytes =
        some t') (hsidecar : ¬SidecarFits storage now args t) :
      PutEnds storage now args t (.error e) t'
  | written (fields : PyDict) (t' t'' : FileTree β) (hfits : fits storage (put_path storage args) = true)
      (hmetafits : fits storage (meta_path (put_path storage args)) = true)
      (hfields : put_meta storage now args.content_type = .ok fields)
      (hwritten : writeFile (with_folder storage args t) (put_path storage args) args.content_bytes =
        some t')
      (hmeta : writeFile t' (meta_path (put_path storage args)) (storage.library.dumps fields) =
        some t'') :
      PutEnds storage now args t (.ok (address storage args)) t''

theorem write_bytes_run (content : β) (t : FileTree β) :
    write_bytes storage path content t =
      match if fits storage path then writeFile t path content else none with
      | some t' => ([t'], .ok ())
      | none => ([], .error os_error) := by
  show (match if fits storage path then writeFile t path content else none with
    | some t' => write fun _ => t'
    | none => raise os_error : Act β Unit) t = _
  rcases (if fits storage path then writeFile t path content else none) with _ | t'
  · rfl
  · rfl

theorem write_bytes_fails {content : β}
    (h : (if fits storage path then writeFile t path content else none) = none) :
    (write_bytes storage path content).result t = .error os_error ∧
      (write_bytes storage path content).final t = t := by
  unfold Prog.result Prog.final
  rw [write_bytes_run, h]
  exact ⟨rfl, rfl⟩

theorem write_bytes_done {content : β}
    (h : (if fits storage path then writeFile t path content else none) = some t') :
    (write_bytes storage path content).result t = .ok () ∧
      (write_bytes storage path content).final t = t' := by
  unfold Prog.result Prog.final
  rw [write_bytes_run, h]
  exact ⟨rfl, rfl⟩

theorem mkdir_run (storage : LocalObjectStorage β) (path : Path) (t : FileTree β) :
    mkdir storage path t =
      if fits storage path then
        ([(makeDirs t path).1], if (makeDirs t path).2 then .ok () else .error os_error)
      else ([], .error os_error) := by
  unfold mkdir
  split
  · show (write (fun _ => (makeDirs t path).1) >>= fun _ =>
      (if (makeDirs t path).2 then pure () else raise os_error : Act β Unit)) t = _
    split <;> rfl
  · rfl

/-- What is written after the file is there. -/
theorem sidecar_writable (h : SidecarFits storage now args t)
    (hwritten : writeFile (with_folder storage args t) (put_path storage args) args.content_bytes =
      some t') (fields : PyDict) :
    ∃ t'', writeFile t' (meta_path (put_path storage args)) (storage.library.dumps fields) =
      some t'' := by
  obtain ⟨p, hp, -⟩ := Option.bind_eq_some_iff.1 hwritten
  have hspares := writeFile_spares hwritten
  have hlocated : locate t' (meta_path (put_path storage args)) =
      some (placeOf (meta_path (put_path storage args))) := hspares.locate (locate_beside hp)
  refine ⟨_, writeFile_some hlocated ?_⟩
  have hsame : t'.get? (placeOf (meta_path (put_path storage args))) =
      (with_folder storage args t).get? (placeOf (meta_path (put_path storage args))) :=
    hspares.same _ (placeOf_beside_ne (put_path storage args) (by decide))
  have hfree := h.free
  unfold isDirectory at hfree ⊢
  rw [hsame]
  exact hfree

theorem write_object_ends (storage : LocalObjectStorage β) (now : Time) (args : PutArgs β)
    (t : FileTree β) : PutEnds storage now args t
      (((write_object storage now (put_path storage args) args).result t).map fun _ => address storage args)
      ((write_object storage now (put_path storage args) args).final t) := by
  unfold write_object
  have hmkdir := mkdir_run storage (put_path storage args).dropLast t
  by_cases hparent : fits storage (put_path storage args).dropLast = true
  swap
  · rw [if_neg hparent] at hmkdir
    have hresult : (mkdir storage (put_path storage args).dropLast).result t = .error os_error := by
      rw [Prog.result, hmkdir]
    rw [result_bind_error hresult, final_bind_error hresult, Prog.final, hmkdir]
    exact .refused os_error
  rw [if_pos hparent] at hmkdir
  have hfinal : (mkdir storage (put_path storage args).dropLast).final t =
      with_folder storage args t := by
    rw [Prog.final, hmkdir]
    rfl
  by_cases hmade : (makeDirs t (put_path storage args).dropLast).2 = true
  swap
  · rw [if_neg hmade] at hmkdir
    have hresult : (mkdir storage (put_path storage args).dropLast).result t = .error os_error := by
      rw [Prog.result, hmkdir]
    rw [result_bind_error hresult, final_bind_error hresult, hfinal]
    exact .directories os_error
  rw [if_pos hmade] at hmkdir
  have hresult : (mkdir storage (put_path storage args).dropLast).result t = .ok () := by
    rw [Prog.result, hmkdir]
  rw [result_bind hresult, final_bind hresult, hfinal]
  rcases hcontent : (if fits storage (put_path storage args) then
      writeFile (with_folder storage args t) (put_path storage args) args.content_bytes else none) with _ | t'
  · obtain ⟨hfails, hsame⟩ := write_bytes_fails hcontent
    rw [result_bind_error hfails, final_bind_error hfails, hsame]
    exact .directories os_error
  obtain ⟨hdone, hwrote⟩ := write_bytes_done hcontent
  rw [result_bind hdone, final_bind hdone, hwrote]
  split at hcontent
  swap
  · cases hcontent
  rename_i hfits
  rcases hfields : put_meta storage now args.content_type with e | fields
  · refine .content e t' hfits hcontent fun hsidecar => ?_
    obtain ⟨fields, hok⟩ := hsidecar.fields
    cases hfields.symm.trans hok
  show PutEnds storage now args t ((Prog.result (write_meta storage (put_path storage args) fields) t').map
    fun _ => address storage args) (Prog.final (write_meta storage (put_path storage args) fields) t')
  unfold write_meta
  rcases hmeta : (if fits storage (meta_path (put_path storage args)) then
      writeFile t' (meta_path (put_path storage args)) (storage.library.dumps fields) else none) with _ | t''
  · obtain ⟨hfails, hsame⟩ := write_bytes_fails hmeta
    rw [hfails, hsame]
    refine .content os_error t' hfits hcontent fun hsidecar => ?_
    obtain ⟨t'', hwritable⟩ := sidecar_writable hsidecar hcontent fields
    rw [if_pos hsidecar.name, hwritable] at hmeta
    cases hmeta
  · obtain ⟨hdone, hwrote⟩ := write_bytes_done hmeta
    rw [hdone, hwrote]
    split at hmeta
    · rename_i hmetafits
      exact .written fields t' t'' hfits hmetafits hfields hcontent hmeta
    · cases hmeta

theorem put_object_ends (t : FileTree β) :
    PutEnds storage now args t ((put_object storage now args).result t)
      ((put_object storage now args).final t) := by
  have hexists := path_exists_result storage (put_path storage args) t
  have hsame := path_exists_quiet storage (put_path storage args) t
  unfold put_object
  show PutEnds storage now args t ((path_exists storage (put_path storage args) >>= _).result t)
    ((path_exists storage (put_path storage args) >>= _).final t)
  split at hexists
  · rw [result_bind hexists, final_bind hexists, hsame]
    split
    · rename_i hkept
      exact .kept hkept.1
    · have hends := write_object_ends storage now args t
      show PutEnds storage now args t
        ((write_object storage now (put_path storage args) args >>= fun _ => pure (address storage args)).result t)
        ((write_object storage now (put_path storage args) args >>= fun _ => pure (address storage args)).final t)
      rw [final_bind_pure]
      rcases hresult : (write_object storage now (put_path storage args) args).result t with e | u
      · rw [hresult] at hends
        rw [result_bind_error hresult]
        exact hends
      · rw [hresult] at hends
        rw [result_bind hresult]
        exact hends
  · rw [result_bind_error hexists, final_bind_error hexists, hsame]
    exact .refused os_error

/-- The names of a path that a put could use fit. -/
theorem put_object_fits {uri : String} (h : (put_object storage now args).result t = .ok uri) :
    fits storage (put_path storage args) = true := by
  have hexists := path_exists_result storage (put_path storage args) t
  split at hexists
  · assumption
  · have hraises : (put_object storage now args).result t = .error os_error := result_bind_error hexists
    cases hraises.symm.trans h

theorem sidecar_place_ne_file (path : Path) : placeOf path ∉ ({placeOf (meta_path path)} : Set Place) :=
  (placeOf_beside_ne path (by decide)).symm

theorem sidecar_place_apart (path : Path) : placeOf (meta_path path) ∉ ({placeOf path} : Set Place) :=
  placeOf_beside_ne path (by decide)

/-- Before the sidecar is written, it is as it was. -/
theorem sidecar_after_content {content text : β}
    (hwritten : writeFile (with_folder storage args t) (put_path storage args) content = some t') :
    t'.get? (placeOf (meta_path (put_path storage args))) = some (.file text) ↔
      t.get? (placeOf (meta_path (put_path storage args))) = some (.file text) := by
  rw [(writeFile_spares hwritten).same _ (sidecar_place_apart _)]
  exact ⟨makeDirsFrom_files, makeDirsFrom_keeps⟩

theorem put_meta_flag {content_type : Option String} {fields : PyDict}
    (h : put_meta storage now content_type = .ok fields) : hold_flag fields = false := by
  unfold put_meta at h
  split at h
  · split at h
    · cases h
      simp [hold_flag, PyDict.getD, PyDict.set, lookupEntry_setEntry, new_meta, lookupEntry,
        PyVal.truthy]
    · cases h
  · cases h
    simp [hold_flag, PyDict.getD, new_meta, lookupEntry, PyVal.truthy]

/-- A put that writes its sidecar leaves the blob with an unset flag. -/
theorem sidecar_of_put {fields : PyDict} {t'' : FileTree β} {content : β}
    (hpath : path_for_uri storage (address storage args) = .ok (put_path storage args))
    (hfits : fits storage (put_path storage args) = true)
    (hmetafits : fits storage (meta_path (put_path storage args)) = true)
    (hfields : put_meta storage now args.content_type = .ok fields)
    (hwritten : writeFile (with_folder storage args t) (put_path storage args) content = some t')
    (hmeta : writeFile t' (meta_path (put_path storage args)) (storage.library.dumps fields) = some t'') :
    ∃ fields', Sidecar storage (address storage args) t'' fields' ∧ hold_flag fields' = false := by
  obtain ⟨fields', hloads, hsame⟩ := storage.library.loads_dumps fields
  obtain ⟨p, hp, -⟩ := Option.bind_eq_some_iff.1 hwritten
  refine ⟨fields', ⟨_, hpath, hfits, ?_, ?_⟩, (hold_flag_agrees (hsame _)).trans (put_meta_flag hfields)⟩
  · have hspared := (writeFile_spares hmeta).lookup ((writeFile_spares hwritten).locate hp) (by
      rw [locate_eq hp]
      exact (placeOf_beside_ne (put_path storage args) (by decide)).symm)
    rw [hspared, lookup_written hwritten]
    rfl
  · unfold meta_at loads_or_default
    rw [if_pos hmetafits, lookup_written hmeta]
    dsimp only
    rw [hloads]

section put

variable {r : Except PyErr String} (h : PutEnds storage now args t r t')
  (hpath : path_for_uri storage (address storage args) = .ok (put_path storage args))

include h

/-- A put that raises has written no new file, if it could write the sidecar. -/
theorem PutEnds.raises_there {e : PyErr} (hr : r = .error e) (hfits : SidecarFits storage now args t)
    (hthere : There storage (address storage args) t') : There storage (address storage args) t := by
  cases h with
  | refused e => exact hthere
  | kept hthere => cases hr
  | directories e =>
    obtain ⟨path, content, hpath', hget⟩ := hthere
    exact ⟨path, content, hpath', makeDirsFrom_files hget⟩
  | content e t' hname hwritten hsidecar => exact absurd hfits hsidecar
  | written fields t' t'' hname hmetafits hfields hwritten hmeta => cases hr

/-- A put that returns found something at its path, or its bytes are there. -/
theorem PutEnds.found {uri : String} (hr : r = .ok uri) :
    (lookup t (put_path storage args)).isSome = true ∧ t' = t ∨
      lookup t' (put_path storage args) = some (.file args.content_bytes) := by
  cases h with
  | refused e => cases hr
  | kept hthere => exact .inl ⟨hthere, rfl⟩
  | directories e => cases hr
  | content e t' hfits hwritten hsidecar => cases hr
  | written fields t' t'' hfits hmetafits hfields hwritten hmeta =>
    refine .inr ?_
    exact (writeFile_spares hmeta).keeps_files.lookup_file (sidecar_place_ne_file _) (lookup_written hwritten)

include hpath

theorem PutEnds.keeps_files :
    KeepsFiles {p | p ∈ object_places storage (address storage args)} t t' := by
  have hplaces := places_of_path hpath
  have hfile : ∀ {a b : FileTree β} {content : β}, writeFile a (put_path storage args) content = some b →
      KeepsFiles {p | p ∈ object_places storage (address storage args)} a b := by
    intro a b content hwritten
    refine (writeFile_spares hwritten).keeps_files.mono ?_
    rintro p rfl
    show _ ∈ object_places storage (address storage args)
    rw [hplaces]
    exact List.mem_cons_self
  have hfolder : KeepsFiles {p | p ∈ object_places storage (address storage args)} t
      (with_folder storage args t) := makeDirs_keeps_files t _
  cases h with
  | refused e => exact .refl t
  | kept hthere => exact .refl t
  | directories e => exact hfolder
  | content e t' hfits hwritten hsidecar => exact hfolder.trans (hfile hwritten)
  | written fields t' t'' hfits hmetafits hfields hwritten hmeta =>
    refine (hfolder.trans (hfile hwritten)).trans ((writeFile_spares hmeta).keeps_files.mono ?_)
    rintro p rfl
    show _ ∈ object_places storage (address storage args)
    rw [hplaces]
    exact List.mem_cons_of_mem _ List.mem_cons_self

theorem PutEnds.flagged (hflagged : Flagged storage (address storage args) t') :
    Flagged storage (address storage args) t := by
  obtain ⟨path, text, fields', hpath', hget, hloads, hflag⟩ := hflagged
  cases Except.ok.inj (hpath.symm.trans hpath')
  have hbefore : ∀ {text : β}, t.get? (placeOf (meta_path (put_path storage args))) = some (.file text) →
      loads_or_default storage text = .ok (.dict fields') → Flagged storage (address storage args) t :=
    fun hget hloads => ⟨_, _, fields', hpath, hget, hloads, hflag⟩
  cases h with
  | refused e => exact hbefore hget hloads
  | kept hthere => exact hbefore hget hloads
  | directories e => exact hbefore (makeDirsFrom_files hget) hloads
  | content e t' hfits hwritten hsidecar =>
    exact hbefore ((sidecar_after_content hwritten).1 hget) hloads
  | written fields t' t'' hfits hmetafits hfields hwritten hmeta =>
    obtain ⟨_, hsidecar, hunset⟩ := sidecar_of_put hpath hfits hmetafits hfields hwritten hmeta
    exact absurd ⟨_, text, fields', hpath, hget, hloads, hflag⟩ (not_flagged_of_sidecar hsidecar hunset)

/-- A put that raises leaves the sidecar. -/
theorem PutEnds.raises_flagged {e : PyErr} (hr : r = .error e)
    (hflagged : Flagged storage (address storage args) t) :
    Flagged storage (address storage args) t' := by
  obtain ⟨path, text, fields, hpath', hget, hrest⟩ := hflagged
  cases Except.ok.inj (hpath.symm.trans hpath')
  cases h with
  | refused e => exact ⟨_, text, fields, hpath, hget, hrest⟩
  | kept hthere => cases hr
  | directories e => exact ⟨_, text, fields, hpath, makeDirsFrom_keeps hget, hrest⟩
  | content e t' hfits hwritten hsidecar =>
    exact ⟨_, text, fields, hpath, (sidecar_after_content hwritten).2 hget, hrest⟩
  | written fields t' t'' hfits hmetafits hfields hwritten hmeta => cases hr

/-- A put that returns has kept the files, or its sidecar can be read. -/
theorem PutEnds.returns {uri : String} (hr : r = .ok uri) :
    t' = t ∨ ∃ fields, Sidecar storage (address storage args) t' fields := by
  cases h with
  | refused e => cases hr
  | kept hthere => exact .inl rfl
  | directories e => cases hr
  | content e t' hfits hwritten hsidecar => cases hr
  | written fields t' t'' hfits hmetafits hfields hwritten hmeta =>
    obtain ⟨fields', hsidecar, -⟩ := sidecar_of_put hpath hfits hmetafits hfields hwritten hmeta
    exact .inr ⟨fields', hsidecar⟩

theorem PutEnds.whole (hwhole : Whole storage (address storage args) t) :
    Whole storage (address storage args) t' := by
  have hsame : ∀ {path : Path}, path_for_uri storage (address storage args) = .ok path →
      path = put_path storage args := fun hpath' => Except.ok.inj (hpath'.symm.trans hpath)
  cases h with
  | refused e => exact hwhole
  | kept hthere => exact hwhole
  | directories e =>
    exact hwhole.elsewhere (S := ∅) (makeDirs_keeps_files t _) fun p _ hin => hin
  | content e t' hfits hwritten hsidecar =>
    have hfound : (lookup t' (put_path storage args)).isSome = true := by
      rw [lookup_written hwritten]
      rfl
    refine ⟨fun path _ hpath' _ => ?_, fun path text hpath' hget => ?_, fun path hpath' _ => ?_⟩
    · rw [hsame hpath']
      exact ⟨hfits, hfound⟩
    · rw [hsame hpath'] at hget ⊢
      exact hwhole.sidecar _ text hpath ((sidecar_after_content hwritten).1 hget)
    · rw [hsame hpath']
      exact ⟨hfits, hfound⟩
  | written fields t' t'' hfits hmetafits hfields hwritten hmeta =>
    obtain ⟨fields', ⟨path, hpath', -, hfound, -⟩, -⟩ :=
      sidecar_of_put hpath hfits hmetafits hfields hwritten hmeta
    rw [hsame hpath'] at hfound
    refine ⟨fun path _ hpath' _ => ?_, fun path text hpath' _ => ?_, fun path hpath' _ => ?_⟩
    · rw [hsame hpath']
      exact ⟨hfits, hfound⟩
    · rw [hsame hpath']
      exact hmetafits
    · rw [hsame hpath']
      exact ⟨hfits, hfound⟩

end put

/-! ## Deletes -/

/-- No file comes by a delete. -/
theorem delete_object_files {p : Place} {content : β}
    (h : ((delete_object storage now storage_uri).final t).get? p = some (.file content)) :
    t.get? p = some (.file content) := by
  let R : FileTree β → FileTree β → Prop := fun a b => ∀ p content, b.get? p = some (.file content) →
    a.get? p = some (.file content)
  have hunlink : ∀ path, Keeps R (unlink_path path : Act β Unit) := by
    intro path
    refine keeps_of_read fun a => ?_
    split
    · rename_i b hremoved
      refine ⟨fun p content hget => ?_, trivial⟩
      obtain ⟨q, hq, hrest⟩ := Option.bind_eq_some_iff.1 hremoved
      split at hrest
      · cases hrest
      · obtain ⟨entry, -, rfl⟩ := Option.map_eq_some_iff.1 hrest
        rw [Dict.get?_erase] at hget
        split at hget
        · cases hget
        · exact hget
    · trivial
  have hdelete : Keeps R (delete_object storage now storage_uri) := by
    refine keeps_bind looks_is_legal_hold_active.keeps fun _ => keeps_ite (keeps_raise _) ?_
    refine keeps_bind looks_is_retention_active.keeps fun _ => keeps_ite (keeps_raise _) ?_
    refine keeps_bind (keeps_lift _) fun path => keeps_bind keeps_path_exists fun _ => ?_
    refine keeps_ite (keeps_bind (hunlink path) fun _ => ?_) (keeps_pure _)
    refine keeps_bind (keeps_bind keeps_path_exists fun _ => ?_) fun _ => keeps_pure _
    exact keeps_ite (hunlink _) (keeps_pure _)
  exact hdelete.final (fun _ _ _ hget => hget) (fun _ _ _ hab hbc p c hget => hab p c (hbc p c hget)) t p
    content h

/-- A delete of a blob whose flag is set changes nothing. -/
theorem deleted (now : Time) (h : Whole storage storage_uri t) :
    (delete_object storage now storage_uri).final t = t ∨
      ¬Flagged storage storage_uri ((delete_object storage now storage_uri).final t) := by
  by_cases hallowed : DeleteAllowed storage now storage_uri t
  · refine .inr ?_
    rintro ⟨path, text, fields, hpath, hget, hrest⟩
    have hbefore : Flagged storage storage_uri t :=
      ⟨path, text, fields, hpath, delete_object_files hget, hrest⟩
    have hheld := h.held_iff.2 hbefore
    cases hheld.symm.trans hallowed.1
  · exact .inl (delete_object_blocked hallowed)

theorem delete_object_keeps_files (storage : LocalObjectStorage β) (storage_uri : String)
    (now : Time) (t : FileTree β) : KeepsFiles {p | p ∈ object_places storage storage_uri} t
      ((delete_object storage now storage_uri).final t) :=
  (delete_object_spares.final Spares.refl (fun _ _ _ => Spares.trans) t).keeps_files

theorem Whole.deleted (h : Whole storage storage_uri t) :
    Whole storage storage_uri ((delete_object storage now storage_uri).final t) := by
  have hkeeps := delete_object_keeps_files storage storage_uri now t
  rcases blob_flags.deleted now h with hsame | hunset
  · rw [hsame]
    exact h
  · refine ⟨fun path content hpath hget => ?_, fun path text hpath hget => ?_,
      fun path hpath hflagged => absurd hflagged hunset⟩
    · obtain ⟨hfits, hthere⟩ := h.file path content hpath (delete_object_files hget)
      exact ⟨hfits, hkeeps.still_there hthere fun _ _ => by rw [hget]; rfl⟩
    · exact h.sidecar path text hpath (delete_object_files hget)

end bid_evaluation.blob_flags
