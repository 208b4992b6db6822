-- The law of the report archive: with write-once on, the address of a report
-- that was persisted reads back that report, as long as addresses lead back to
-- the paths of their keys and no directory stands where a report goes.
import BidEvaluation.HoldEnds
import BidEvaluation.CleanupLaws
import BidEvaluation.ReportJson

open dict_lib file_tree stepwise lockstep bid_evaluation.values bid_evaluation.object_storage
  bid_evaluation.object_frames bid_evaluation.worm_laws bid_evaluation.blob_places
  bid_evaluation.blob_flags bid_evaluation.hold_store bid_evaluation.hold_steps
  bid_evaluation.hold_shapes bid_evaluation.hold_ends bid_evaluation.report_json
open bid_evaluation.cleanup_laws (cleaned)
open bid_evaluation.endings (AnyStep)

namespace bid_evaluation.report_archive

variable {β : Type} {settings : Settings β} {s t : System β}

/-! ## Addresses that lead back -/

/-- The address of a key is cut at the first slash of the bucket's name. What
comes after it must not read as an absolute path, unless the bucket does. -/
def LeadsBack (storage : LocalObjectStorage β) : Prop :=
  ∀ name rest, '/' ∉ name → storage.bucket.toList = name ++ '/' :: rest →
    storage.key_prefix.toList.head? ≠ some '/' ∧
      (name = [] ↔ (rest ++ ['/']).head? = some '/')

theorem head_append (start rest : String) (h : start ≠ "") :
    (start ++ rest).toList.head? = start.toList.head? := by
  rw [String.toList_append, List.head?_append_of_ne_nil]
  intro hnil
  exact h (String.ext hnil)

theorem key_head {storage : LocalObjectStorage β} (hstart : storage.key_prefix.toList.head? ≠ some '/')
    (tenant_id object_type object_id filename : String) :
    (build_key storage tenant_id object_type object_id filename).toList.head? ≠ some '/' := by
  have hbase : ∀ rest : String, ("tenants/" ++ rest).toList.head? ≠ some '/' := by
    intro rest
    rw [head_append _ _ (by decide)]
    decide
  unfold build_key
  dsimp only
  split
  · split
    · simp only [String.append_assoc]
      exact hbase _
    · split <;>
        · simp only [String.append_assoc]
          exact hbase _
  · rename_i hne
    rw [String.append_assoc, head_append _ _ hne]
    exact hstart

theorem path_names_nil : path_names [] = [] := by decide

/-- An address leads to the path of its key. -/
theorem LeadsBack.path {storage : LocalObjectStorage β} (h : LeadsBack storage) (args : PutArgs β) :
    path_for_uri storage (address storage args) = .ok (put_path storage args) := by
  by_cases hslash : '/' ∈ storage.bucket.toList
  swap
  · exact path_for_uri_of_key hslash _
  obtain ⟨name, rest, hbucket, hnot⟩ := List.eq_append_cons_of_mem hslash
  obtain ⟨hstart, hname⟩ := h name rest hnot hbucket
  have hkey : (key_of storage args).toList.head? ≠ some '/' := key_head hstart _ _ _ _
  have hsplit := path_for_uri_split (key_of storage args) hnot
    (show storage.bucket.toList ++ '/' :: (key_of storage args).toList =
      name ++ '/' :: (rest ++ '/' :: (key_of storage args).toList)
      by rw [hbucket, List.append_assoc, List.cons_append])
  have hhead : (rest ++ '/' :: (key_of storage args).toList).head? = (rest ++ ['/']).head? := by
    cases rest <;> rfl
  have hnames : path_names (rest ++ '/' :: (key_of storage args).toList) =
      path_names rest ++ path_names (key_of storage args).toList := path_names_append _ _
  rw [address, hsplit, put_path, path_for_key, join, hhead, hnames]
  nth_rewrite 2 [join]
  rw [if_neg hkey, hbucket]
  congr 1
  by_cases hempty : name = []
  · rw [if_pos (hname.1 hempty), hempty, List.nil_append, join, if_pos List.head?_cons]
    have hrest : path_names ('/' :: rest) = path_names rest := by
      have hparts := path_names_append [] rest
      rwa [path_names_nil, List.nil_append] at hparts
    rw [hrest]
  · rw [if_neg fun habsolute => hempty (hname.2 habsolute), join, join, path_names_append]
    obtain ⟨c, more, rfl⟩ := List.exists_cons_of_ne_nil hempty
    have hc : c ≠ '/' := fun heq => hnot (heq ▸ List.mem_cons_self)
    rw [if_neg, if_neg]
    · simp only [List.append_assoc]
    · simpa using hc
    · simpa using hc

/-! ## Places of reports -/

/-- A place that a report of the evaluation can have. -/
def ReportPlace (id filename : String) (p : Place) : Prop := ∃ above, p = above ++ ["reports", id, filename]

section places

variable {id id' filename filename' tenant_id : String} {p : Place}

theorem ReportPlace.unique (h : ReportPlace id filename p) (h' : ReportPlace id' filename' p) :
    id = id' ∧ filename = filename' := by
  obtain ⟨above, rfl⟩ := h
  obtain ⟨above', heq⟩ := h'
  have hrev := congrArg List.reverse heq
  simp only [List.reverse_append, List.reverse_cons, List.reverse_nil, List.nil_append,
    List.cons_append, List.cons.injEq] at hrev
  exact ⟨hrev.2.1, hrev.1⟩

theorem ReportPlace.in_folder (h : ReportPlace id filename p) (hid : EvaluationId id) :
    InFolder "report" id p := by
  obtain ⟨above, rfl⟩ := h
  exact .report hid above filename

/-- No place of a report is among them. -/
def Away (S : Set Place) : Prop :=
  ∀ p ∈ S, ∀ id filename, EvaluationId id → ReportName filename → ¬ReportPlace id filename p

theorem away_of_document {S : Set Place} (h : ∀ p ∈ S, InFolder "document" id p) : Away S := by
  intro p hp id' filename hid hname hplace
  obtain ⟨htype, -⟩ := (h p hp).unique (hplace.in_folder hid)
  exact absurd htype (by decide)

theorem sidecar_of_places {storage : LocalObjectStorage β} {storage_uri : String} {a b : Place}
    (h : object_places storage storage_uri = [a, b]) : sidecar_places storage storage_uri = [b] := by
  unfold object_places object_paths at h
  unfold sidecar_places
  split at h
  · rename_i path hpath
    rw [List.map_cons, List.map_singleton] at h
    injection h
  · cases h

theorem sidecar_in_places {storage : LocalObjectStorage β} {storage_uri : String}
    (h : p ∈ sidecar_places storage storage_uri) : p ∈ object_places storage storage_uri := by
  unfold sidecar_places at h
  split at h
  · rename_i path hpath
    rw [places_of_path hpath, List.mem_singleton.1 h]
    exact List.mem_cons_of_mem _ List.mem_cons_self
  · cases h

/-- The sidecar of a blob is at no place of a report. -/
theorem away_sidecar {object_type storage_uri : String}
    (h : BlobUri settings tenant_id object_type id storage_uri) :
    Away {p | p ∈ sidecar_places settings.storage storage_uri} := by
  have hfolder := h.in_folder
  obtain ⟨filename, ⟨rfl, hid⟩ | ⟨rfl, hid, hname⟩, rfl⟩ := h
  · exact away_of_document fun p hp => hfolder p (sidecar_in_places hp)
  · obtain ⟨above, hplaces⟩ := report_places settings.storage hid tenant_id hname.plain
    rintro p hp id' other hid' hother hplace
    have hp' : p ∈ sidecar_places settings.storage (uri_for_key settings.storage
      (build_key settings.storage tenant_id "report" id filename)) := hp
    rw [sidecar_of_places hplaces, List.mem_singleton] at hp'
    obtain ⟨-, hnames⟩ := hplace.unique ⟨above, hp'⟩
    exact report_name_ne_sidecar hother hname hnames

/-- The two places of the blob of a report. -/
theorem report_blob (hleads : LeadsBack settings.storage) (args : PutArgs β)
    (htype : args.object_type = "report") (hid : EvaluationId args.object_id)
    (hname : ReportName args.filename) :
    ReportPlace args.object_id args.filename (placeOf (put_path settings.storage args)) ∧
      ∀ p ∈ object_places settings.storage (address settings.storage args),
        p = placeOf (put_path settings.storage args) ∨
          ∀ id filename, ReportName filename → ¬ReportPlace id filename p := by
  obtain ⟨above, hplaces⟩ := report_places settings.storage hid args.tenant_id hname.plain
  rw [← htype] at hplaces
  have hboth : [placeOf (put_path settings.storage args),
      placeOf (meta_path (put_path settings.storage args))] =
        [above ++ ["reports", args.object_id, args.filename],
          above ++ ["reports", args.object_id, args.filename ++ ".meta.json"]] :=
    (places_of_path (hleads.path args)).symm.trans hplaces
  injection hboth with hfile hrest
  refine ⟨⟨above, hfile⟩, fun p hp => ?_⟩
  rw [places_of_path (hleads.path args), List.mem_pair] at hp
  refine hp.imp id fun hsidecar id' other hother hplace => ?_
  injection hrest with hmeta
  obtain ⟨-, hnames⟩ := hplace.unique ⟨above, hsidecar.trans hmeta⟩
  exact report_name_ne_sidecar hother hname hnames

end places

/-! ## What a step does to the files -/

/-- The report without its address. -/
def payload_of (evaluation_id tenant_id : String) (fields : PyDict) : PyDict :=
  report_payload ⟨evaluation_id, tenant_id, fields, none⟩

/-- What is put for a report. -/
def args_of (settings : Settings β) (evaluation_id tenant_id : String) (fields : PyDict) : PutArgs β :=
  report_args settings ⟨evaluation_id, tenant_id, fields, none⟩

inductive Effect (settings : Settings β) (s t : System β) : Op β → Prop where
  | away (op : Op β) (S : Set Place) (hfiles : KeepsFiles S s.files t.files) (haway : Away S) :
      Effect settings s t op
  | archived (evaluation_id tenant_id : String) (fields : PyDict) (r : Except PyErr String) (u : System β)
      (htenant : s.evaluations.get? evaluation_id = some tenant_id)
      (hput : HeldPut settings (args_of settings evaluation_id tenant_id fields) s u r)
      (hfiles : t.files = u.files) : Effect settings s t (.archive_report evaluation_id fields)
  | cleaned (args : CleanupArgs) (uri : String) (now : Time)
      (hblob : BlobOf settings s args.tenant_id args.object_type args.object_id uri)
      (hfiles : t.files = (delete_object settings.storage now uri).final s.files) :
      Effect settings s t (.cleanup args)

theorem Effect.quiet (op : Op β) (h : t.files = s.files) : Effect settings s t op :=
  .away op ∅ (by rw [h]; exact .refl _) fun _ hp => absurd hp (Set.notMem_empty _)

theorem Effect.edited {op : Op β} {object_type object_id tenant_id uri : String}
    {edit : PyDict → PyDict} (h : BlobUri settings tenant_id object_type object_id uri)
    (hfiles : t.files = (edit_meta settings.storage uri edit).final s.files) : Effect settings s t op := by
  have hspares : Spares {p | p ∈ sidecar_places settings.storage uri} s.files
      ((edit_meta settings.storage uri edit).final s.files) :=
    (edit_meta_spares edit).final Spares.refl (fun _ _ _ => Spares.trans) s.files
  refine .away op _ ?_ (away_sidecar h)
  rw [hfiles]
  exact hspares.keeps_files

theorem upload_effect (hhex : HexSettings settings) (hleads : LeadsBack settings.storage) {file : Upload β}
    (h : UploadEnds settings file s t) : Effect settings s t (.upload file) := by
  have hput : ∀ {file_bytes r} {u : System β}, HeldPut settings (upload_args settings file s file_bytes)
      { s with draws := s.draws + 1 } u r → t.files = u.files → Effect settings s t (.upload file) := by
    intro file_bytes r u hput hfiles
    refine .away _ _ ?_ (away_of_document (document_places settings.storage
      (document_id hhex s.draws) file.tenant_id (or_default file.filename "upload.bin")))
    rw [hfiles]
    exact hput.keeps_files (hleads.path _)
  cases h with
  | existing hsame => exact .quiet _ (by rw [hsame])
  | empty ht => exact .quiet _ (by rw [ht])
  | raised file_bytes e h => exact hput h rfl
  | stored file_bytes uri u h ht => exact hput h (by rw [ht])

theorem archive_effect {evaluation_id : String} {fields : PyDict} {r : Except PyErr Unit}
    (h : ArchiveEnds settings evaluation_id fields s t r) :
    Effect settings s t (.archive_report evaluation_id fields) := by
  cases h with
  | unknown hnone hsame => exact .quiet _ (by rw [hsame])
  | raised tenant_id e htenant hput => exact .archived evaluation_id tenant_id fields _ t htenant hput rfl
  | archived tenant_id uri u htenant hput ht =>
    exact .archived evaluation_id tenant_id fields _ u htenant hput (by rw [ht])

theorem impose_effect (hhex : HexSettings settings) (hshaped : Shaped settings s) {args : ImposeArgs}
    (h : ImposeEnds settings args s t) : Effect settings s t (.impose args) := by
  cases h with
  | refused hsame hfiles => exact .quiet _ hfiles
  | imposed hold hvalid hfound hobject hid hstatus hresolve hholds hdocuments hevaluations hreports hdraws
      hnone hsome =>
    cases huri : hold.storage_uri with
    | none => exact .quiet _ (hnone huri)
    | some uri =>
      obtain ⟨now, done, -, hfiles⟩ := hsome uri huri
      rw [huri] at hresolve
      exact .edited ((blob_of_resolved hshaped hresolve).uri hhex hshaped) hfiles

theorem release_effect (hhex : HexSettings settings) (hshaped : Shaped settings s) {args : ReleaseArgs}
    (h : ReleaseEnds settings args s t) : Effect settings s t (.release args) := by
  cases h with
  | refused hsame hfiles => exact .quiet _ hfiles
  | released hold hold' hcheck hid hobject hstatus hholds hdocuments hevaluations hreports hdraws hblob
      hfiles =>
    rcases hfiles with ⟨-, hfiles⟩ | ⟨uri, now, hfound, hfiles⟩
    · exact .quiet _ hfiles
    · obtain ⟨hget, -, -⟩ := check_release.spec hcheck
      exact .edited (blob_of_hold.shapes hhex hshaped (hshaped.holds _ _ hget).2 hfound) hfiles

theorem cleanup_effect (hshaped : Shaped settings s) {args : CleanupArgs} {raised : Bool}
    (h : Cleaned settings args s t raised) : Effect settings s t (.cleanup args) := by
  rcases h.files with hquiet | ⟨uri, now, -, hresolve, -, hfiles⟩
  · exact .quiet _ hquiet
  · exact .cleaned args uri now (blob_of_resolved hshaped hresolve) hfiles

theorem effect (hhex : HexSettings settings) (hleads : LeadsBack settings.storage)
    (hshaped : Shaped settings s) (op : Op β) : Effect settings s ((op.act settings).final s) op := by
  have hquiet : ∀ {α : Type} {m : HoldAct β α} {op : Op β} {Q : System β → Prop},
      Meets AnyStep m s (fun _ t => Q t) → (∀ t, Q t → Effect settings s t op) →
        Effect settings s ((quiet m).final s) op := by
    intro α m op Q hm hQ
    rw [hold_store.quiet, final_bind_pure]
    exact hQ _ hm.2
  cases op with
  | upload file => exact hquiet (create_upload_job_ends file s) fun t => upload_effect hhex hleads
  | create_evaluation tenant_id => exact .quiet _ rfl
  | archive_report evaluation_id fields =>
    exact archive_effect (archive_report_ends hhex hshaped evaluation_id fields).2
  | impose args => exact hquiet (impose_legal_hold_ends args s) fun t => impose_effect hhex hshaped
  | release args => exact hquiet (release_ends args s) fun t => release_effect hhex hshaped
  | cleanup args =>
    rw [Op.act, hold_store.quiet, final_bind_pure]
    exact cleanup_effect hshaped (execute_storage_cleanup.spec _ args s).2

/-- A step persists the report. -/
inductive Persists (s : System β) : Op β → PyDict → Prop where
  | report (evaluation_id tenant_id : String) (fields : PyDict)
      (htenant : s.evaluations.get? evaluation_id = some tenant_id) :
      Persists s (.archive_report evaluation_id fields) (payload_of evaluation_id tenant_id fields)

/-- A file at the place of a report was there, or it is the report that the
step persists. -/
theorem Effect.bytes (hhex : HexSettings settings) (hleads : LeadsBack settings.storage)
    (hshaped : Shaped settings s) {op : Op β} (h : Effect settings s t op) {id filename : String} {p : Place}
    {content : β} (hid : EvaluationId id) (hname : ReportName filename) (hplace : ReportPlace id filename p)
    (hfile : t.files.get? p = some (.file content)) :
    s.files.get? p = some (.file content) ∨ ∃ payload, Persists s op payload ∧
      build_report_filename settings payload = filename ∧ content = settings.dump_report payload := by
  cases h with
  | away op S hfiles haway =>
    exact .inl ((hfiles.same p (fun hin => haway p hin id filename hid hname hplace) content).1 hfile)
  | archived evaluation_id tenant_id fields r u htenant hput hfiles =>
    rw [hfiles] at hfile
    have hpath := hleads.path (args_of settings evaluation_id tenant_id fields)
    obtain ⟨hfileplace, hplaces⟩ := report_blob hleads (args_of settings evaluation_id tenant_id fields) rfl
      (hshaped.evaluations _ _ htenant |>.evaluation_id hhex) (report_name hhex _)
    by_cases hin : p ∈ object_places settings.storage
        (address settings.storage (args_of settings evaluation_id tenant_id fields))
    · rcases hplaces p hin with rfl | hsidecar
      · obtain ⟨-, rfl⟩ := hfileplace.unique hplace
        rcases hput.bytes hpath hfile with hbefore | heq
        · exact .inl hbefore
        · exact .inr ⟨_, .report evaluation_id tenant_id fields htenant, rfl, heq⟩
      · exact absurd hplace (hsidecar id filename hname)
    · exact .inl (((hput.keeps_files hpath).same p hin content).1 hfile)
  | cleaned args uri now hblob hfiles =>
    rw [hfiles] at hfile
    exact .inl (delete_object_files hfile)

/-- The address of a report of the evaluation. -/
def ReportUri (settings : Settings β) (s : System β) (id storage_uri : String) : Prop :=
  ∃ args : PutArgs β, s.evaluations.get? id = some args.tenant_id ∧ args.object_type = "report" ∧
    args.object_id = id ∧ ReportName args.filename ∧ storage_uri = address settings.storage args

/-- With write-once on, what a report's address reads back stays, but for a
cleanup of that report. -/
theorem Effect.stored (hhex : HexSettings settings) (hleads : LeadsBack settings.storage)
    (hshaped : Shaped settings s) (hworm : settings.storage.worm_mode = true) {op : Op β}
    (h : Effect settings s t op) {id uri : String} {content : β} (huri : ReportUri settings s id uri)
    (hstored : Stored settings.storage uri content s.files)
    (hcleanup : ∀ args, op = .cleanup args → ¬(args.object_type = "report" ∧ args.object_id = id)) :
    Stored settings.storage uri content t.files := by
  obtain ⟨args, htenant, htype, rfl, hname, rfl⟩ := huri
  have hid : EvaluationId args.object_id := hshaped.evaluations _ _ htenant |>.evaluation_id hhex
  have hpath := hleads.path args
  obtain ⟨hplace, -⟩ := report_blob hleads _ htype hid hname
  obtain ⟨hfits, hfile⟩ := (stored_iff hpath).1 hstored
  refine (stored_iff hpath).2 ⟨hfits, ?_⟩
  cases h with
  | away op S hfiles haway =>
    exact hfiles.lookup_file (fun hin => haway _ hin _ _ hid hname hplace) hfile
  | archived evaluation_id tenant_id fields r u htenant' hput hfiles =>
    rw [hfiles]
    have hpath' := hleads.path (args_of settings evaluation_id tenant_id fields)
    obtain ⟨hplace', hplaces⟩ := report_blob hleads (args_of settings evaluation_id tenant_id fields) rfl
      (hshaped.evaluations _ _ htenant' |>.evaluation_id hhex) (report_name hhex _)
    by_cases hin : placeOf (put_path settings.storage args) ∈ object_places settings.storage
        (address settings.storage (args_of settings evaluation_id tenant_id fields))
    · rcases hplaces _ hin with hsame | hsidecar
      · -- the step puts the same report file again
        rw [hsame] at hplace
        obtain ⟨hsameid, hsamename⟩ := hplace.unique hplace'
        have hpaths : put_path settings.storage args =
            put_path settings.storage (args_of settings evaluation_id tenant_id fields) := by
          have htenants : args.tenant_id = tenant_id := by
            rw [hsameid] at htenant
            exact Option.some.inj (htenant.symm.trans htenant')
          unfold put_path key_of
          rw [htenants, htype, hsameid, hsamename]
          rfl
        rw [hpaths] at hfile ⊢
        exact hput.kept hpath' hworm hfile
      · exact absurd hplace (hsidecar _ _ hname)
    · exact (hput.keeps_files hpath').lookup_file hin hfile
  | cleaned cleanup uri now hblob hfiles =>
    rw [hfiles]
    refine (delete_object_keeps_files _ _ _ s.files).lookup_file (fun hin => ?_) hfile
    obtain ⟨hsametype, hsameid⟩ :=
      ((hblob.uri hhex hshaped).in_folder _ hin).unique (hplace.in_folder hid)
    exact hcleanup cleanup rfl ⟨hsametype, hsameid⟩

/-! ## Evaluations -/

theorem evaluations_stay (hhex : HexSettings settings) (hshaped : Shaped settings s) (op : Op β)
    {id tenant_id : String} (hget : s.evaluations.get? id = some tenant_id) :
    ((op.act settings).final s).evaluations.get? id = some tenant_id := by
  have hquiet : ∀ {α : Type} {m : HoldAct β α} {Q : System β → Prop},
      Meets AnyStep m s (fun _ t => Q t) → (∀ t, Q t → t.evaluations = s.evaluations) →
        ((quiet m).final s).evaluations.get? id = some tenant_id := by
    intro α m Q hm hQ
    rw [hold_store.quiet, final_bind_pure, hQ _ hm.2]
    exact hget
  cases op with
  | upload file =>
    refine hquiet (create_upload_job_ends file s) fun t h => ?_
    cases h with
    | existing hsame => rw [hsame]
    | empty ht => rw [ht]
    | raised file_bytes e hput => exact hput.only.evaluations
    | stored file_bytes uri u hput ht =>
      rw [ht]
      exact hput.only.evaluations
  | create_evaluation tenant =>
    show (s.evaluations.set ("ev_" ++ settings.env.uuid4.hex12 s.draws) tenant).get? id = some tenant_id
    have hne : id ≠ "ev_" ++ settings.env.uuid4.hex12 s.draws := by
      rintro rfl
      exact not_drawn_yet (le_refl _) (hshaped.evaluations _ _ hget)
    rw [Dict.get?_set_of_ne _ _ hne]
    exact hget
  | archive_report evaluation_id fields =>
    have hsame : ∀ r t, ArchiveEnds settings evaluation_id fields s t r → t.evaluations = s.evaluations := by
      intro r t h
      cases h with
      | unknown hnone hsame => rw [hsame]
      | raised tenant e htenant hput => exact hput.only.evaluations
      | archived tenant uri u htenant hput ht =>
        rw [ht]
        exact hput.only.evaluations
    show ((archive_report settings evaluation_id fields).final s).evaluations.get? id = some tenant_id
    rw [hsame _ _ (archive_report_ends hhex hshaped evaluation_id fields).2]
    exact hget
  | impose args =>
    refine hquiet (impose_legal_hold_ends args s) fun t h => ?_
    cases h with
    | refused hsame hfiles => exact hsame.evaluations
    | imposed hold hvalid hfound hobject hid hstatus hresolve hholds hdocuments hevaluations => exact hevaluations
  | release args =>
    refine hquiet (release_ends args s) fun t h => ?_
    cases h with
    | refused hsame hfiles => exact hsame.evaluations
    | released hold hold' hcheck hid hobject hstatus hholds hdocuments hevaluations => exact hevaluations
  | cleanup args =>
    rw [Op.act, hold_store.quiet, final_bind_pure]
    have hsame := (execute_storage_cleanup.spec settings args s).2.same
    rw [hsame.evaluations]
    exact hget

/-- What is read at the address of a report that was just persisted. -/
theorem archived_is_stored (hleads : LeadsBack settings.storage) {evaluation_id tenant_id : String}
    {fields : PyDict} {r : Except PyErr Unit} (h : ArchiveEnds settings evaluation_id fields s t r)
    (hr : r = .ok ()) (htenant : s.evaluations.get? evaluation_id = some tenant_id)
    (hclear : lookup s.files (put_path settings.storage (args_of settings evaluation_id tenant_id fields)) ≠
      some .directory)
    (hbytes : ∀ content, s.files.get? (placeOf (put_path settings.storage
      (args_of settings evaluation_id tenant_id fields))) = some (.file content) →
        content = settings.dump_report (payload_of evaluation_id tenant_id fields)) :
    Stored settings.storage (address settings.storage (args_of settings evaluation_id tenant_id fields))
      (settings.dump_report (payload_of evaluation_id tenant_id fields)) t.files := by
  have hpath := hleads.path (args_of settings evaluation_id tenant_id fields)
  obtain ⟨u, hput, hfiles, -⟩ := h.returned hr htenant
  rw [hfiles, stored_iff hpath]
  obtain ⟨hfits, ⟨hthere, hkept⟩ | hwritten⟩ := hput.found hpath rfl
  · -- something was there: no directory, so a file, and it has these bytes
    refine ⟨hfits, ?_⟩
    obtain ⟨entry, hentry⟩ := Option.isSome_iff_exists.1 hthere
    cases entry with
    | directory => exact absurd hentry hclear
    | file content =>
      rw [← hbytes content (lookup_file hentry)]
      exact hkept content hentry
  · exact ⟨hfits, hwritten⟩

/-! ## Modes -/

theorem hex_under (modes : Modes) (h : HexSettings settings) : HexSettings (settings.under modes) :=
  ⟨h.uuid, h.digest⟩

theorem LeadsBack.under (modes : Modes) (h : LeadsBack settings.storage) :
    LeadsBack (settings.under modes).storage := h

theorem stored_under (modes : Modes) {storage_uri : String} {content : β} {files : FileTree β} :
    Stored (settings.under modes).storage storage_uri content files ↔
      Stored settings.storage storage_uri content files := by
  unfold Stored get_object path_for_uri path_exists fits
  exact Iff.rfl

theorem put_path_under (settings : Settings β) (modes : Modes) (args : PutArgs β) :
    put_path (settings.under modes).storage args = put_path settings.storage args := by
  unfold put_path path_for_key key_of build_key
  rfl

theorem report_uri_under (modes : Modes) {id storage_uri : String} :
    ReportUri (settings.under modes) s id storage_uri ↔ ReportUri settings s id storage_uri := by
  have haddress : ∀ args : PutArgs β,
      address (settings.under modes).storage args = address settings.storage args :=
    fun args => address_under modes args.filename
  unfold ReportUri
  simp only [haddress]

/-! ## The law -/

/-- The bytes of a report are its JSON text. -/
def WritesJson (settings : Settings β) : Prop :=
  ∃ encode : String → β, ∀ payload,
    settings.dump_report payload = encode (dumps_spaced settings.env (.dict payload))

/-- A report with this payload is persisted in the run. -/
def PersistedIn (settings : Settings β) (requests : List (Request β)) (payload : PyDict) : Prop :=
  ∃ before request, before ++ [request] <+: requests ∧
    Persists ((hold_store.machine settings).after before) request.op payload

/-- Reports with one digest have one text. -/
def DigestsApart (settings : Settings β) (requests : List (Request β)) : Prop :=
  ∀ payload payload', PersistedIn settings requests payload → PersistedIn settings requests payload' →
    build_report_filename settings payload = build_report_filename settings payload' →
      routes.dumps settings.env (.dict payload) = routes.dumps settings.env (.dict payload')

/-- No directory stands where the report goes that the step persists. -/
def NoDirectory (settings : Settings β) (s : System β) (request : Request β) : Prop :=
  ∀ evaluation_id tenant_id fields, request.op = .archive_report evaluation_id fields →
    s.evaluations.get? evaluation_id = some tenant_id →
      lookup s.files (put_path settings.storage (args_of settings evaluation_id tenant_id fields)) ≠
        some .directory

theorem same_dump (hfloats : FloatsPlain settings.env) (hjson : WritesJson settings) {payload payload' : PyDict}
    (h : routes.dumps settings.env (.dict payload) = routes.dumps settings.env (.dict payload')) :
    settings.dump_report payload = settings.dump_report payload' := by
  obtain ⟨encode, hencode⟩ := hjson
  rw [hencode, hencode, dumps_decides hfloats h]

variable {requests : List (Request β)}

theorem PersistedIn.mono {more : List (Request β)} {payload : PyDict} (h : PersistedIn settings requests payload)
    (hpart : requests <+: more) : PersistedIn settings more payload := by
  obtain ⟨before, request, hbefore, hpersists⟩ := h
  exact ⟨before, request, hbefore.trans hpart, hpersists⟩

/-- The effect of a request, under its modes. -/
theorem effect_of (hhex : HexSettings settings) (hleads : LeadsBack settings.storage)
    (before : List (Request β)) (request : Request β) :
    Effect (settings.under request.modes) ((hold_store.machine settings).after before)
      ((hold_store.machine settings).after (before ++ [request])) request.op := by
  rw [Machine.after_concat]
  exact effect (hex_under _ hhex) (hleads.under _) ((shaped_under _).2 (shaped_after hhex before)) request.op

/-- In every state, a file at the place of a report is a report that was
persisted, under the name that it got. -/
theorem files_are_reports (hhex : HexSettings settings) (hleads : LeadsBack settings.storage)
    (requests : List (Request β)) {id filename : String} {p : Place} {content : β} (hid : EvaluationId id)
    (hname : ReportName filename) (hplace : ReportPlace id filename p)
    (hfile : ((hold_store.machine settings).after requests).files.get? p = some (.file content)) :
    ∃ payload, PersistedIn settings requests payload ∧
      build_report_filename settings payload = filename ∧ content = settings.dump_report payload := by
  induction requests using List.reverseRecOn with
  | nil => cases hfile
  | append_singleton before request ih =>
    rcases (effect_of hhex hleads before request).bytes (hex_under _ hhex) (hleads.under _)
      ((shaped_under _).2 (shaped_after hhex before)) hid hname hplace hfile with
        hbefore | ⟨payload, hpersists, hsame, hcontent⟩
    · obtain ⟨payload, hpersisted, hrest⟩ := ih hbefore
      exact ⟨payload, hpersisted.mono (List.prefix_append _ _), hrest⟩
    · exact ⟨payload, ⟨before, request, List.prefix_refl _, hpersists⟩, hsame, hcontent⟩

/-- What a persisted report's address reads back right away. -/
theorem persisted_is_stored (hhex : HexSettings settings) (hfloats : FloatsPlain settings.env)
    (hjson : WritesJson settings) (hleads : LeadsBack settings.storage)
    {before : List (Request β)} {modes : Modes} {evaluation_id tenant_id : String} {fields : PyDict}
    (hdigest : DigestsApart settings (before ++ [⟨modes, .archive_report evaluation_id fields⟩]))
    (hclear : NoDirectory settings ((hold_store.machine settings).after before)
      ⟨modes, .archive_report evaluation_id fields⟩)
    (htenant : ((hold_store.machine settings).after before).evaluations.get? evaluation_id = some tenant_id)
    (hreturns : (hold_store.machine settings).answer before ⟨modes, .archive_report evaluation_id fields⟩ =
      .ok ()) :
    let t := (hold_store.machine settings).after (before ++ [⟨modes, .archive_report evaluation_id fields⟩])
    ∃ uri report, t.evaluation_reports.get? evaluation_id = some report ∧ report.report_uri = some uri ∧
      report_payload report = payload_of evaluation_id tenant_id fields ∧
        ReportUri settings t evaluation_id uri ∧
          Stored settings.storage uri (settings.dump_report (payload_of evaluation_id tenant_id fields)) t.files := by
  intro t
  have hunder := hex_under modes hhex
  have hshaped := (shaped_under modes).2 (shaped_after hhex before)
  have hends : ArchiveEnds (settings.under modes) evaluation_id fields
      ((hold_store.machine settings).after before) t
      ((hold_store.machine settings).answer before ⟨modes, .archive_report evaluation_id fields⟩) := by
    show ArchiveEnds _ _ _ _ ((hold_store.machine settings).after (before ++ [_])) _
    rw [Machine.after_concat]
    exact (archive_report_ends hunder hshaped evaluation_id fields).2
  have hid : EvaluationId evaluation_id := hshaped.evaluations _ _ htenant |>.evaluation_id hunder
  have hname : ReportName (args_of settings evaluation_id tenant_id fields).filename := report_name hhex _
  obtain ⟨hplace, -⟩ :=
    report_blob hleads (args_of settings evaluation_id tenant_id fields) rfl hid hname
  have hsame := put_path_under settings modes (args_of settings evaluation_id tenant_id fields)
  have hstored := archived_is_stored (hleads.under modes) hends hreturns htenant (by
      show lookup _ (put_path (settings.under modes).storage (args_of settings evaluation_id tenant_id fields)) ≠ _
      rw [hsame]
      exact hclear evaluation_id tenant_id fields rfl htenant) (by
    intro content hfile
    have hfile' : ((hold_store.machine settings).after before).files.get? (placeOf
        (put_path (settings.under modes).storage (args_of settings evaluation_id tenant_id fields))) =
          some (.file content) := hfile
    rw [hsame] at hfile'
    obtain ⟨payload, hpersisted, hfilename, rfl⟩ := files_are_reports hhex hleads before hid hname hplace hfile'
    exact same_dump hfloats hjson (hdigest _ _ (hpersisted.mono (List.prefix_append _ _))
      ⟨before, _, List.prefix_refl _, .report evaluation_id tenant_id fields htenant⟩ hfilename))
  obtain ⟨u, -, -, hevaluations, hrow⟩ := hends.returned hreturns htenant
  refine ⟨_, _, hrow, rfl, rfl, (report_uri_under modes).1 ⟨args_of (settings.under modes) evaluation_id
    tenant_id fields, ?_, rfl, rfl, hname, rfl⟩, (stored_under modes).1 hstored⟩
  rw [hevaluations]
  exact htenant

/-- With write-once on and no cleanup of the report, the address of a report
that was persisted reads back that report in every later state, whatever else
is put, held, released or deleted. -/
theorem report_archive_is_faithful (hhex : HexSettings settings) (hfloats : FloatsPlain settings.env)
    (hjson : WritesJson settings) (hleads : LeadsBack settings.storage) {requests : List (Request β)}
    (hworm : ∀ request ∈ requests, request.modes.worm_mode = true) (hdigest : DigestsApart settings requests)
    (hclear : Throughout (hold_store.machine settings) (NoDirectory settings) requests) :
    ∀ before modes evaluation_id fields tenant_id later,
      before ++ [⟨modes, .archive_report evaluation_id fields⟩] ++ later <+: requests →
      ((hold_store.machine settings).after before).evaluations.get? evaluation_id = some tenant_id →
      (hold_store.machine settings).answer before ⟨modes, .archive_report evaluation_id fields⟩ = .ok () →
      (∀ request ∈ later, ∀ args, request.op = .cleanup args →
        ¬(args.object_type = "report" ∧ args.object_id = evaluation_id)) →
      ∃ uri report, ((hold_store.machine settings).after
          (before ++ [⟨modes, .archive_report evaluation_id fields⟩])).evaluation_reports.get? evaluation_id =
            some report ∧
        report.report_uri = some uri ∧ report_payload report = payload_of evaluation_id tenant_id fields ∧
          (get_object settings.storage uri).result ((hold_store.machine settings).after
            (before ++ [⟨modes, .archive_report evaluation_id fields⟩] ++ later)).files =
              .ok (settings.dump_report (report_payload report)) := by
  intro before modes evaluation_id fields tenant_id later hpart htenant hreturns hcleanup
  have hfirst := (List.prefix_append _ later).trans hpart
  obtain ⟨uri, report, hrow, haddress, hpayload, huri, hstored⟩ := persisted_is_stored hhex hfloats hjson hleads
    (fun payload payload' h h' => hdigest _ _ (h.mono hfirst) (h'.mono hfirst)) (hclear before _ hfirst) htenant
    hreturns
  refine ⟨uri, report, hrow, haddress, hpayload, ?_⟩
  rw [hpayload]
  suffices hall : ReportUri settings ((hold_store.machine settings).after
      (before ++ [⟨modes, .archive_report evaluation_id fields⟩] ++ later)) evaluation_id uri ∧
        Stored settings.storage uri (settings.dump_report (payload_of evaluation_id tenant_id fields))
          ((hold_store.machine settings).after
            (before ++ [⟨modes, .archive_report evaluation_id fields⟩] ++ later)).files from hall.2
  induction later using List.reverseRecOn with
  | nil =>
    rw [List.append_nil]
    exact ⟨huri, hstored⟩
  | append_singleton later request ih =>
    rw [← List.append_assoc] at hpart ⊢
    obtain ⟨huri, hstored⟩ := ih ((List.prefix_append _ _).trans hpart)
      (fun r hr => hcleanup r (List.mem_append_left _ hr))
    have hshaped := (shaped_under request.modes).2 (shaped_after hhex
      (before ++ [⟨modes, .archive_report evaluation_id fields⟩] ++ later))
    have hlast : request ∈ later ++ [request] := List.mem_append_right _ (List.mem_singleton_self _)
    have hstays := (effect_of hhex hleads _ request).stored (hex_under _ hhex) (hleads.under _) hshaped
      (hworm request (hpart.subset (List.mem_append_right _ (List.mem_singleton_self _))))
      ((report_uri_under _).2 huri) ((stored_under _).2 hstored) (hcleanup request hlast)
    refine ⟨?_, (stored_under _).1 hstays⟩
    obtain ⟨args, htenants, hrest⟩ := huri
    refine ⟨args, ?_, hrest⟩
    rw [Machine.after_concat]
    exact evaluations_stay (hex_under _ hhex) hshaped request.op htenants

/-! ## Instances -/

/-- Reports as JSON texts, and a digest that tells even lengths from odd ones. -/
def json_settings (bucket : String) : Settings FileText where
  env := operations.calm_env
  sha256 text := if text.length % 2 = 0 then "0" else "1"
  dump_report payload := .text (dumps_spaced operations.calm_env (.dict payload))
  storage := .init plain_library 255 ⟨bucket, ["tmp", "bea-object-storage"], "", true, 0, "GOVERNANCE"⟩

def write_once : Modes := ⟨true, 0, "GOVERNANCE"⟩

/-- An evaluation, and two versions of its report. -/
def two_versions : List (Request FileText) :=
  [⟨write_once, .create_evaluation "tenant"⟩, ⟨write_once, .archive_report "ev_" []⟩,
    ⟨write_once, .archive_report "ev_" [("score", .none)]⟩]

theorem json_hex (bucket : String) : HexSettings (json_settings bucket) where
  uuid := plain_hex.uuid
  digest text := by
    show HexText (if text.length % 2 = 0 then "0" else "1")
    have hdigits : HexText "0" ∧ HexText "1" := by
      unfold HexText
      decide
    split
    · exact hdigits.1
    · exact hdigits.2

theorem json_floats (bucket : String) : FloatsPlain (json_settings bucket).env := by
  intro x
  show ∀ c ∈ "value".toList, json_text.Plain c
  unfold json_text.Plain
  decide

theorem json_leads : LeadsBack (json_settings "bea").storage := by
  intro name rest _ hbucket
  have hslash : '/' ∈ "bea".toList :=
    (show "bea".toList = name ++ '/' :: rest from hbucket) ▸ List.mem_append_right _ List.mem_cons_self
  exact absurd hslash (by decide)

theorem persisted_concat (requests : List (Request β)) {request : Request β} {payload : PyDict}
    (h : PersistedIn settings (requests ++ [request]) payload) :
    PersistedIn settings requests payload ∨
      Persists ((hold_store.machine settings).after requests) request.op payload := by
  obtain ⟨before, other, hpart, hpersists⟩ := h
  rcases List.prefix_concat_iff.1 hpart with heq | hpart
  · obtain ⟨rfl, hother⟩ := List.append_inj' heq rfl
    rw [← List.singleton_inj.1 hother]
    exact .inr hpersists
  · exact .inl ⟨before, other, hpart, hpersists⟩

/-- The first version is read after the second was put. -/
theorem first_version_stays :
    let settings := json_settings "bea"
    let machine := hold_store.machine settings
    ∃ uri report, (machine.after (two_versions.take 2)).evaluation_reports.get? "ev_" = some report ∧
      report.report_uri = some uri ∧ report_payload report = payload_of "ev_" "tenant" [] ∧
        (get_object settings.storage uri).result (machine.after two_versions).files =
          .ok (settings.dump_report (report_payload report)) := by
  intro settings machine
  have htenants : ∀ requests ∈ [two_versions.take 1, two_versions.take 2],
      (machine.after requests).evaluations.get? "ev_" = some "tenant" := by decide +kernel
  have hfirst := htenants (two_versions.take 1) (by simp)
  have hsecond := htenants (two_versions.take 2) (by simp)
  have hpersisted : ∀ payload, PersistedIn settings two_versions payload →
      payload = payload_of "ev_" "tenant" [] ∨ payload = payload_of "ev_" "tenant" [("score", .none)] := by
    intro payload h
    rcases persisted_concat (two_versions.take 2) h with h | ⟨⟨_, tenant, fields, htenant⟩⟩
    · rcases persisted_concat (two_versions.take 1) h with h | ⟨⟨_, tenant, fields, htenant⟩⟩
      · rcases persisted_concat [] h with ⟨before, other, hpart, -⟩ | h
        · simpa using List.IsPrefix.length_le hpart
        · cases h
      · cases hfirst.symm.trans htenant
        exact .inl rfl
    · cases hsecond.symm.trans htenant
      exact .inr rfl
  have hnames : build_report_filename settings (payload_of "ev_" "tenant" []) ≠
      build_report_filename settings (payload_of "ev_" "tenant" [("score", .none)]) := by decide +kernel
  have hdigest : DigestsApart settings two_versions := by
    intro payload payload' h h' hsame
    rcases hpersisted _ h with rfl | rfl <;> rcases hpersisted _ h' with rfl | rfl
    · rfl
    · exact absurd hsame hnames
    · exact absurd hsame.symm hnames
    · rfl
  have hfree : ∀ requests fields, (machine.after requests).evaluations.get? "ev_" = some "tenant" →
      isDirectory (machine.after requests).files (placeOf (put_path settings.storage
        (args_of settings "ev_" "tenant" fields))) = false →
          NoDirectory settings (machine.after requests) ⟨write_once, .archive_report "ev_" fields⟩ := by
    intro requests fields hget hfree _ tenant _ hop htenant hlookup
    cases hop
    cases hget.symm.trans htenant
    rw [directory_of_lookup hlookup] at hfree
    cases hfree
  have hclear : Throughout machine (NoDirectory settings) two_versions := by
    refine throughout_concat (two_versions.take 2) (throughout_concat (two_versions.take 1)
      (throughout_concat [] (throughout_nil _ _) ?_) ?_) ?_
    · exact fun _ _ _ hop => by cases hop
    · exact hfree _ _ hfirst (by decide +kernel)
    · exact hfree _ _ hsecond (by decide +kernel)
  exact report_archive_is_faithful (json_hex _) (json_floats _) ⟨.text, fun _ => rfl⟩ json_leads (by decide) hdigest
    hclear (two_versions.take 1) write_once "ev_" [] "tenant" [_] (List.prefix_refl _) hfirst
    (ok_of_toOption (by decide +kernel)) fun request hin args hop => by
      cases List.mem_singleton.1 hin
      cases hop

/-- What is read at the address of the evaluation's report after some requests,
when all were made. -/
def read_report (settings : Settings FileText) (requests later : List (Request FileText)) : Option String :=
  ((((hold_store.machine settings).after requests).evaluation_reports.get? "ev_").bind
    fun report => report.report_uri).bind fun uri =>
      text_of ((get_object settings.storage uri).result
        ((hold_store.machine settings).after (requests ++ later)).files)

/-- A bucket's name that ends in a slash. The address of the report is read as
an absolute path, where nothing is. -/
theorem slashed_bucket_loses_reports :
    let settings := json_settings "bea/"
    let requests := two_versions.take 2
    (∀ request ∈ requests, request.modes.worm_mode = true) ∧
    ((hold_store.machine settings).answer (two_versions.take 1)
      ⟨write_once, .archive_report "ev_" []⟩).toOption = some () ∧
    ((((hold_store.machine settings).after requests).evaluation_reports.get? "ev_").bind
      fun report => report.report_uri) = some
        "object://local/bea//tenants/tenant/reports/ev_/report-0.json" ∧
    read_report settings requests [] = none := by
  decide +kernel

end bid_evaluation.report_archive
