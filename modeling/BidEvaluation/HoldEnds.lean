-- How the operations on holds end: what each leaves of the records and of the
-- files, whether it returns or raises.
import BidEvaluation.BlobFlags
import BidEvaluation.HoldShapes

open dict_lib file_tree stepwise bid_evaluation.values bid_evaluation.object_storage
  bid_evaluation.object_frames bid_evaluation.worm_laws bid_evaluation.blob_flags
  bid_evaluation.hold_store bid_evaluation.hold_steps bid_evaluation.hold_shapes
open bid_evaluation.endings (AnyStep)

namespace bid_evaluation.hold_ends

variable {β : Type} {settings : Settings β} {s t : System β}

structure Object where
  tenant_id : String
  object_type : String
  object_id : String

def held_object (hold : Hold) : Object := ⟨hold.tenant_id, hold.object_type, hold.object_id⟩

/-! ## Puts -/

/-- What a put leaves, with the hold of its object. The record of the hold
moves to the new blob before the flag is set. -/
inductive HeldPut (settings : Settings β) (args : PutArgs β) (s t : System β) :
    Except PyErr String → Prop where
  | raised (e : PyErr)
      (hresult : (put_object settings.storage (settings.env.clock s.draws) args).result s.files =
        .error e)
      (hfiles : t.files =
        (put_object settings.storage (settings.env.clock s.draws) args).final s.files)
      (hsame : Same s t) : HeldPut settings args s t (.error e)
  | free (now : Time)
      (hresult : (put_object settings.storage now args).result s.files =
        .ok (address settings.storage args))
      (hfiles : t.files = (put_object settings.storage now args).final s.files)
      (hsame : Same s t)
      (hfree : find_active_legal_hold s args.tenant_id args.object_type args.object_id = none) :
      HeldPut settings args s t (.ok (address settings.storage args))
  | held (hold : Hold) (now now' : Time) (files : FileTree β)
      (hresult : (put_object settings.storage now args).result s.files =
        .ok (address settings.storage args))
      (hput : files = (put_object settings.storage now args).final s.files)
      (hfound : find_active_legal_hold s args.tenant_id args.object_type args.object_id = some hold)
      (hfiles : t.files =
        (apply_legal_hold settings.storage now' (address settings.storage args)).final files)
      (hholds : t.legal_hold_objects = s.legal_hold_objects.put
        { hold with storage_uri := some (address settings.storage args) })
      (honly : HoldsOnly s t) : HeldPut settings args s t
        (((apply_legal_hold settings.storage now' (address settings.storage args)).result files).map
          fun _ => address settings.storage args)

theorem put_held_object_ends (args : PutArgs β) (s : System β) :
    Meets AnyStep (put_held_object settings args) s (fun r t => HeldPut settings args s t r) := by
  rw [put_held_object, meets_bind, meets_moment, then_ok, meets_bind, meets_on_files]
  rcases hput : (put_object settings.storage (settings.env.clock s.draws) args).result s.files with e | uri
  · exact .raised e hput rfl ⟨rfl, rfl, rfl, rfl, Nat.le_succ _⟩
  cases put_object_address hput
  rw [then_ok, meets_bind, meets_read, then_ok]
  have hfind : ∀ files : FileTree β, find_active_legal_hold { s with files := files, draws := s.draws + 1 }
      args.tenant_id args.object_type args.object_id =
        find_active_legal_hold s args.tenant_id args.object_type args.object_id := fun _ => rfl
  rw [hfind]
  rcases hfound : find_active_legal_hold s args.tenant_id args.object_type args.object_id with _ | hold
  · rw [move_hold, meets_bind, meets_pure, then_ok, meets_pure]
    exact .free _ hput rfl ⟨rfl, rfl, rfl, rfl, Nat.le_succ _⟩ hfound
  · rw [move_hold, hold_store.put_hold, then_assoc, meets_bind, meets_update, then_ok, then_assoc,
      apply_hold, then_assoc, meets_bind, meets_moment, then_ok, meets_bind, meets_on_files]
    have hends : ∀ r, r = (apply_legal_hold settings.storage (settings.env.clock (s.draws + 1))
        (address settings.storage args)).result
          ((put_object settings.storage (settings.env.clock s.draws) args).final s.files) →
        HeldPut settings args s { s with
          legal_hold_objects := s.legal_hold_objects.put
            { hold with storage_uri := some (address settings.storage args) }
          files := (apply_legal_hold settings.storage (settings.env.clock (s.draws + 1))
            (address settings.storage args)).final
              ((put_object settings.storage (settings.env.clock s.draws) args).final s.files)
          draws := s.draws + 1 + 1 } (r.map fun _ => address settings.storage args) := by
      rintro r rfl
      exact .held hold _ _ _ hput rfl hfound rfl rfl ⟨rfl, rfl, rfl, Nat.le_add_right _ 2⟩
    rcases happly : (apply_legal_hold settings.storage (settings.env.clock (s.draws + 1))
      (address settings.storage args)).result
        ((put_object settings.storage (settings.env.clock s.draws) args).final s.files) with e | done
    · exact hends (.error e) happly.symm
    · rw [then_ok, meets_bind, meets_pure, then_ok, meets_pure]
      exact hends (.ok done) happly.symm

theorem file_place {args : PutArgs β} (hpath : path_for_uri settings.storage
    (address settings.storage args) = .ok (put_path settings.storage args)) : placeOf (put_path settings.storage args) ∉
    ({p | p ∈ sidecar_places settings.storage (address settings.storage args)} : Set Place) := by
  simp only [sidecar_places, hpath, Set.mem_ofPred_eq, List.mem_singleton]
  exact (placeOf_beside_ne _ (by decide)).symm

section put

variable {args : PutArgs β} {r : Except PyErr String} (h : HeldPut settings args s t r)

include h

theorem HeldPut.only : HoldsOnly s t := by
  cases h with
  | raised e hresult hfiles hsame =>
    exact ⟨hsame.documents, hsame.evaluations, hsame.evaluation_reports, hsame.draws⟩
  | free now hresult hfiles hsame hfree =>
    exact ⟨hsame.documents, hsame.evaluations, hsame.evaluation_reports, hsame.draws⟩
  | held hold now now' files hresult hput hfound hfiles hholds honly => exact honly

/-- The files are as the put leaves them, but for the sidecar. -/
theorem HeldPut.edited : ∃ now, Spares {p | p ∈ sidecar_places settings.storage (address settings.storage args)}
    ((put_object settings.storage now args).final s.files) t.files := by
  cases h with
  | raised e hresult hfiles hsame => exact ⟨_, by rw [hfiles]; exact .refl _⟩
  | free now hresult hfiles hsame hfree => exact ⟨now, by rw [hfiles]; exact .refl _⟩
  | held hold now now' files hresult hput hfound hfiles hholds honly =>
    refine ⟨now, ?_⟩
    rw [hfiles, ← hput]
    exact (edit_meta_spares _).final Spares.refl (fun _ _ _ => Spares.trans) files

/-- One that returns has put its blob, and gives the address. -/
theorem HeldPut.returns {uri : String} (hr : r = .ok uri) : uri = address settings.storage args ∧
    ∃ now, (put_object settings.storage now args).result s.files = .ok uri ∧
      Spares {p | p ∈ sidecar_places settings.storage (address settings.storage args)}
        ((put_object settings.storage now args).final s.files) t.files := by
  cases h with
  | raised e hresult hfiles hsame => cases hr
  | free now hresult hfiles hsame hfree =>
    cases hr
    exact ⟨rfl, now, hresult, by rw [hfiles]; exact .refl _⟩
  | held hold now now' files hresult hput hfound hfiles hholds honly =>
    rcases happly : (apply_legal_hold settings.storage now' (address settings.storage args)).result files
      with e | done
    · rw [happly] at hr
      cases hr
    · rw [happly] at hr
      cases hr
      refine ⟨rfl, now, hresult, ?_⟩
      rw [hfiles, ← hput]
      exact (edit_meta_spares _).final Spares.refl (fun _ _ _ => Spares.trans) files

variable (hpath : path_for_uri settings.storage (address settings.storage args) =
  .ok (put_path settings.storage args))

include hpath

theorem HeldPut.keeps_files :
    KeepsFiles {p | p ∈ object_places settings.storage (address settings.storage args)} s.files t.files := by
  obtain ⟨now, hedited⟩ := h.edited
  refine ((put_object_ends s.files).keeps_files hpath).trans (hedited.keeps_files.mono ?_)
  intro p hp
  have hsidecar : p ∈ sidecar_places settings.storage (address settings.storage args) := hp
  simp only [sidecar_places, hpath, List.mem_singleton] at hsidecar
  show p ∈ object_places settings.storage (address settings.storage args)
  rw [places_of_path hpath, hsidecar]
  exact List.mem_cons_of_mem _ List.mem_cons_self

/-- A file at the place of the blob was there, or has the bytes of the put. -/
theorem HeldPut.bytes {content : β}
    (hfile : t.files.get? (placeOf (put_path settings.storage args)) = some (.file content)) :
    s.files.get? (placeOf (put_path settings.storage args)) = some (.file content) ∨
      content = args.content_bytes := by
  obtain ⟨now, hedited⟩ := h.edited
  rw [hedited.same _ (file_place hpath)] at hfile
  exact put_object_file hfile

/-- With write-once on, a blob that is there keeps its bytes. -/
theorem HeldPut.kept {content : β} (hworm : settings.storage.worm_mode = true)
    (hfile : lookup s.files (put_path settings.storage args) = some (.file content)) :
    lookup t.files (put_path settings.storage args) = some (.file content) := by
  obtain ⟨now, hedited⟩ := h.edited
  have hquiet := put_object_quiet now hworm (Option.isSome_iff_exists.2 ⟨_, hfile⟩)
  rw [hquiet] at hedited
  exact hedited.keeps_files.lookup_file (file_place hpath) hfile

/-- One that returns found something at its path, or its bytes are there. -/
theorem HeldPut.found {uri : String} (hr : r = .ok uri) :
    fits settings.storage (put_path settings.storage args) = true ∧
      ((lookup s.files (put_path settings.storage args)).isSome = true ∧
          (∀ content, lookup s.files (put_path settings.storage args) = some (.file content) →
            lookup t.files (put_path settings.storage args) = some (.file content)) ∨
        lookup t.files (put_path settings.storage args) = some (.file args.content_bytes)) := by
  obtain ⟨-, now, hresult, hedited⟩ := h.returns hr
  have hstill : ∀ content, lookup ((put_object settings.storage now args).final s.files)
      (put_path settings.storage args) = some (.file content) →
        lookup t.files (put_path settings.storage args) = some (.file content) :=
    fun _ => hedited.keeps_files.lookup_file (file_place hpath)
  refine ⟨put_object_fits hresult, ?_⟩
  rcases (put_object_ends s.files).found hresult with ⟨hthere, hsame⟩ | hwritten
  · rw [hsame] at hstill
    exact .inl ⟨hthere, hstill⟩
  · exact .inr (hstill _ hwritten)

end put

/-! ## Uploads and reports -/

/-- The document that an upload stores. -/
def uploaded (settings : Settings β) (file : Upload β) (s : System β) (storage_uri : Option String) :
    StoredDocument :=
  ⟨"doc_" ++ settings.env.uuid4.hex12 s.draws, file.tenant_id, file.filename, file.file_sha256,
    storage_uri⟩

def upload_args (settings : Settings β) (file : Upload β) (s : System β) (file_bytes : β) : PutArgs β :=
  document_args file ("doc_" ++ settings.env.uuid4.hex12 s.draws) file_bytes

/-- What an upload leaves. One that raises has put its blob, or a part of it,
and stores no document. -/
inductive UploadEnds (settings : Settings β) (file : Upload β) (s t : System β) : Prop where
  | existing (hsame : t = s)
  | empty (ht : t = { s with
      documents := s.documents.put (uploaded settings file s none)
      draws := s.draws + 1 })
  | raised (file_bytes : β) (e : PyErr)
      (hput : HeldPut settings (upload_args settings file s file_bytes) { s with draws := s.draws + 1 } t
        (.error e))
  | stored (file_bytes : β) (uri : String) (u : System β)
      (hput : HeldPut settings (upload_args settings file s file_bytes) { s with draws := s.draws + 1 } u
        (.ok uri))
      (ht : t = { u with documents := u.documents.put (uploaded settings file s (some uri)) })

theorem create_upload_job_ends (file : Upload β) (s : System β) :
    Meets AnyStep (create_upload_job settings file) s (fun _ t => UploadEnds settings file s t) := by
  rw [create_upload_job, meets_bind, meets_read, then_ok]
  rcases duplicate_of s file with _ | existing
  · dsimp only
    rw [meets_bind, meets_uuid4_hex12, then_ok]
    unfold put_upload
    rcases file.file_bytes with _ | file_bytes
    · dsimp only
      rw [meets_bind, meets_pure, then_ok, meets_bind, meets_update, then_ok, meets_pure]
      exact .empty rfl
    · dsimp only
      rw [then_assoc]
      refine (put_held_object_ends _ _).bind ?_ fun e t hput => .raised file_bytes e hput
      intro uri u hput
      rw [meets_bind, meets_pure, then_ok, meets_bind, meets_update, then_ok, meets_pure]
      exact .stored file_bytes uri u hput rfl
  · dsimp only
    rw [meets_pure]
    exact .existing rfl

/-- The report that a run of the evaluation persists. -/
def persisted (s : System β) (evaluation_id tenant_id : String) (fields : PyDict) : StoredReport :=
  ⟨evaluation_id, tenant_id, fields,
    (s.evaluation_reports.get? evaluation_id).bind fun report => report.report_uri⟩

/-- What a report that is persisted leaves. One that raises keeps the row of
the report before. -/
inductive ArchiveEnds (settings : Settings β) (evaluation_id : String) (fields : PyDict)
    (s t : System β) : Except PyErr Unit → Prop where
  | unknown (hnone : s.evaluations.get? evaluation_id = none) (hsame : t = s) :
      ArchiveEnds settings evaluation_id fields s t (.ok ())
  | raised (tenant_id : String) (e : PyErr)
      (htenant : s.evaluations.get? evaluation_id = some tenant_id)
      (hput : HeldPut settings (report_args settings (persisted s evaluation_id tenant_id fields)) s t
        (.error e)) : ArchiveEnds settings evaluation_id fields s t (.error e)
  | archived (tenant_id uri : String) (u : System β)
      (htenant : s.evaluations.get? evaluation_id = some tenant_id)
      (hput : HeldPut settings (report_args settings (persisted s evaluation_id tenant_id fields)) s u
        (.ok uri))
      (ht : t = { u with
        evaluation_reports := u.evaluation_reports.put
          { persisted s evaluation_id tenant_id fields with report_uri := some uri } }) :
      ArchiveEnds settings evaluation_id fields s t (.ok ())

theorem archive_report_ends (hhex : HexSettings settings) (hshaped : Shaped settings s)
    (evaluation_id : String) (fields : PyDict) :
    Meets AnyStep (archive_report settings evaluation_id fields) s
      (fun r t => ArchiveEnds settings evaluation_id fields s t r) := by
  rw [archive_report, meets_bind, meets_read, then_ok]
  rcases htenant : s.evaluations.get? evaluation_id with _ | tenant_id
  · dsimp only
    rw [meets_pure]
    exact .unknown htenant rfl
  · dsimp only
    have hne : evaluation_id ≠ "" :=
      (hshaped.evaluations _ _ htenant |>.evaluation_id hhex).plain.nonempty
    rw [persist_evaluation_report, archive_report_to_object_storage, if_neg hne, then_assoc]
    refine (put_held_object_ends _ _).bind ?_ fun e t hput => .raised tenant_id e htenant hput
    intro uri u hput
    rw [meets_bind, meets_pure, then_ok, meets_update]
    exact .archived tenant_id uri u htenant hput rfl

/-- A report that was persisted is the row of its evaluation, with the address
of its blob. -/
theorem ArchiveEnds.returned {evaluation_id tenant_id : String} {fields : PyDict} {r : Except PyErr Unit}
    (h : ArchiveEnds settings evaluation_id fields s t r) (hr : r = .ok ())
    (htenant : s.evaluations.get? evaluation_id = some tenant_id) :
    let args := report_args settings (persisted s evaluation_id tenant_id fields)
    ∃ u, HeldPut settings args s u (.ok (address settings.storage args)) ∧ t.files = u.files ∧
      t.evaluations = s.evaluations ∧ t.evaluation_reports.get? evaluation_id =
        some { persisted s evaluation_id tenant_id fields with
          report_uri := some (address settings.storage args) } := by
  cases h with
  | unknown hnone hsame =>
    rw [hnone] at htenant
    cases htenant
  | raised tenant e htenant' hput => cases hr
  | archived tenant uri u htenant' hput ht =>
    cases htenant.symm.trans htenant'
    obtain ⟨rfl, -⟩ := hput.returns rfl
    refine ⟨u, hput, by rw [ht], by rw [ht]; exact hput.only.evaluations, ?_⟩
    rw [ht]
    exact Table.get?_put_self _ _

/-! ## Imposes and releases -/

/-- A field of the request has nothing but blanks. -/
def Blank (args : ImposeArgs) : Prop :=
  strip args.object_type = "" ∨ strip args.object_id = "" ∨ strip args.reason = "" ∨
    strip args.imposed_by = ""

/-- What an impose leaves: no change but in the draws, or a new record, with
the flag of the blob that the object resolves to. -/
inductive ImposeEnds (settings : Settings β) (args : ImposeArgs) (s t : System β) : Prop where
  | refused (hsame : Same s t) (hfiles : t.files = s.files)
  | imposed (hold : Hold) (hvalid : ¬Blank args)
      (hfound : find_active_legal_hold s args.tenant_id args.object_type args.object_id = none)
      (hobject : held_object hold = ⟨args.tenant_id, strip args.object_type, strip args.object_id⟩)
      (hid : hold.hold_id = "hold_" ++ settings.env.uuid4.hex12 s.draws)
      (hstatus : hold.status = "active")
      (hresolve : resolve_storage_uri s args.tenant_id (strip args.object_type)
        (strip args.object_id) = .ok hold.storage_uri)
      (hholds : t.legal_hold_objects = s.legal_hold_objects.put hold)
      (hdocuments : t.documents = s.documents) (hevaluations : t.evaluations = s.evaluations)
      (hreports : t.evaluation_reports = s.evaluation_reports) (hdraws : s.draws ≤ t.draws)
      (hnone : hold.storage_uri = none → t.files = s.files)
      (hsome : ∀ uri, hold.storage_uri = some uri → ∃ now done,
        (apply_legal_hold settings.storage now uri).result s.files = .ok done ∧
          t.files = (apply_legal_hold settings.storage now uri).final s.files)

theorem impose_new_ends {args : ImposeArgs} (s : System β) (hvalid : ¬Blank args)
    (hfound : find_active_legal_hold s args.tenant_id args.object_type args.object_id = none) :
    Meets AnyStep (impose_new settings args) s (fun _ t => ImposeEnds settings args s t) := by
  rw [impose_new, meets_bind, meets_uuid4_hex12, then_ok, meets_bind, meets_utcnow_iso, then_ok,
    meets_bind, meets_read, then_ok, meets_bind, meets_lift]
  have hresolve : resolve_storage_uri { s with draws := s.draws + 1 + 1 } args.tenant_id
      (strip args.object_type) (strip args.object_id) = resolve_storage_uri s args.tenant_id
        (strip args.object_type) (strip args.object_id) := rfl
  rw [hresolve]
  rcases hr : resolve_storage_uri s args.tenant_id (strip args.object_type) (strip args.object_id)
    with e | storage_uri
  · exact .refused ⟨rfl, rfl, rfl, rfl, Nat.le_add_right _ 2⟩ rfl
  rw [then_ok]
  dsimp only
  cases storage_uri with
  | none =>
    rw [apply_stored, meets_bind, meets_pure, then_ok, put_hold, meets_bind, meets_update, then_ok,
      meets_bind, meets_append_audit_log, then_ok, meets_pure]
    exact .imposed (new_hold args _ _ none) hvalid hfound rfl rfl rfl hr rfl rfl rfl rfl (Nat.le_add_right _ 4)
      (fun _ => rfl) fun _ he => by cases he
  | some uri =>
    rw [apply_stored, then_assoc, apply_hold, then_assoc, meets_bind, meets_moment, then_ok, meets_bind,
      meets_on_files]
    rcases happly : (apply_legal_hold settings.storage (settings.env.clock (s.draws + 1 + 1)) uri).result
      s.files with e | done
    · exact .refused ⟨rfl, rfl, rfl, rfl, Nat.le_add_right _ 3⟩ (edit_meta_raises happly)
    · rw [then_ok, meets_bind, meets_pure, then_ok, put_hold, meets_bind, meets_update, then_ok,
        meets_bind, meets_append_audit_log, then_ok, meets_pure]
      refine .imposed (new_hold args _ _ (some uri)) hvalid hfound rfl rfl rfl hr rfl rfl rfl rfl
        (Nat.le_add_right _ 5) (fun he => by cases he) fun other he => ?_
      cases he
      exact ⟨_, done, happly, rfl⟩

theorem impose_legal_hold_ends (args : ImposeArgs) (s : System β) :
    Meets AnyStep (impose_legal_hold settings args) s (fun _ t => ImposeEnds settings args s t) := by
  unfold impose_legal_hold
  split
  · unfold raise_api
    rw [meets_raise]
    exact .refused (.refl s) rfl
  · rename_i hvalid
    rw [meets_bind, meets_read, then_ok]
    rcases hfound : find_active_legal_hold s args.tenant_id args.object_type args.object_id
      with _ | existing
    · exact impose_new_ends s hvalid hfound
    · dsimp only
      rw [meets_pure]
      exact .refused (.refl s) rfl

/-- What a release leaves: no change but in the draws, or the record of the
hold as released, and the flag of the blob that is looked up lifted. -/
inductive ReleaseEnds (settings : Settings β) (args : ReleaseArgs) (s t : System β) : Prop where
  | refused (hsame : Same s t) (hfiles : t.files = s.files)
  | released (hold hold' : Hold) (hcheck : check_release s args = .ok hold)
      (hid : hold'.hold_id = hold.hold_id) (hobject : held_object hold' = held_object hold)
      (hstatus : hold'.status = "released")
      (hholds : ∀ id, t.legal_hold_objects.get? id = (s.legal_hold_objects.put hold').get? id)
      (hdocuments : t.documents = s.documents) (hevaluations : t.evaluations = s.evaluations)
      (hreports : t.evaluation_reports = s.evaluation_reports) (hdraws : s.draws ≤ t.draws)
      (hblob : ∀ uri, hold'.storage_uri = some uri →
        blob_of_hold s hold = .ok (some uri) ∨ hold.storage_uri = some uri)
      (hfiles : (∀ uri, blob_of_hold s hold ≠ .ok (some uri)) ∧ t.files = s.files ∨
        ∃ uri now, blob_of_hold s hold = .ok (some uri) ∧
          t.files = (object_storage.release_legal_hold settings.storage now uri).final s.files)

theorem release_ends (args : ReleaseArgs) (s : System β) :
    Meets AnyStep (hold_store.release_legal_hold settings args) s
      (fun _ t => ReleaseEnds settings args s t) := by
  unfold hold_store.release_legal_hold hold_store.put_hold
  rw [meets_bind, meets_read, then_ok, meets_bind, meets_lift]
  rcases hcheck : check_release s args with e | hold
  · exact .refused (.refl s) rfl
  rw [then_ok, meets_bind, meets_utcnow_iso, then_ok]
  dsimp only
  rw [meets_bind, meets_update, then_ok, meets_bind, meets_read, then_ok, meets_bind, meets_lift]
  generalize settings.storage.library.isoformat (settings.env.clock s.draws) = released_at
  have hsame : blob_of_hold { s with
      legal_hold_objects := s.legal_hold_objects.put (released hold args released_at)
      draws := s.draws + 1 } (released hold args released_at) = blob_of_hold s hold := rfl
  rw [hsame]
  rcases hblob : blob_of_hold s hold with e | storage_uri
  · refine .released hold (released hold args released_at) hcheck rfl rfl rfl (fun _ => rfl) rfl rfl rfl
      (Nat.le_succ _) (fun uri huri => .inr huri) (.inl ⟨fun uri => ?_, rfl⟩)
    rw [hblob]
    exact fun he => by cases he
  rw [then_ok]
  dsimp only
  rw [meets_bind, meets_update, then_ok]
  have hends : ∀ t : System β, Same { s with
        legal_hold_objects := (s.legal_hold_objects.put (released hold args released_at)).put
          { released hold args released_at with storage_uri := storage_uri.or hold.storage_uri }
        draws := s.draws + 1 } t →
      (storage_uri = none → t.files = s.files) →
      (∀ uri, storage_uri = some uri → t.files = (object_storage.release_legal_hold settings.storage
        (settings.env.clock (s.draws + 1)) uri).final s.files) → ReleaseEnds settings args s t := by
    intro t hsame hnone hsome
    refine .released hold
      { released hold args released_at with storage_uri := storage_uri.or hold.storage_uri } hcheck rfl
      rfl rfl (fun id => ?_) hsame.documents hsame.evaluations hsame.evaluation_reports
      ((Nat.le_succ _).trans hsame.draws) (fun uri huri => ?_) ?_
    · rw [hsame.legal_hold_objects, Table.get?_put, Table.get?_put, Table.get?_put]
      show (if id = hold.hold_id then _ else if id = hold.hold_id then _ else _) =
        if id = hold.hold_id then _ else _
      split <;> rfl
    · rcases Option.or_eq_some_iff.1 huri with hfound | ⟨-, hkept⟩
      · rw [hblob, show storage_uri = some uri from hfound]
        exact .inl rfl
      · exact .inr hkept
    · cases storage_uri with
      | none =>
        refine .inl ⟨fun uri he => ?_, hnone rfl⟩
        rw [hblob] at he
        cases he
      | some uri => exact .inr ⟨uri, _, hblob, hsome uri rfl⟩
  refine (release_stored.spec _).bind ?_ fun e t ⟨hsame, hnone, hsome⟩ => hends t hsame hnone hsome
  rintro _ t ⟨hsame, hnone, hsome⟩
  rw [meets_bind, meets_append_audit_log, then_ok, meets_pure]
  exact hends _ (hsame.trans ⟨rfl, rfl, rfl, rfl, Nat.le_add_right _ 2⟩) hnone hsome

end bid_evaluation.hold_ends
