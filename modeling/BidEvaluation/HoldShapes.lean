-- The records of the hold store and the blobs that they name. In every state
-- that can be reached a document, a report and a hold name a blob in their own
-- object's folder, so two objects never share a file.
import BidEvaluation.HoldSteps
import BidEvaluation.BlobPlaces

open dict_lib file_tree stepwise lockstep bid_evaluation.values bid_evaluation.object_storage
  bid_evaluation.object_frames bid_evaluation.worm_laws bid_evaluation.blob_places
  bid_evaluation.hold_store bid_evaluation.hold_steps
open bid_evaluation.endings (AnyStep)

namespace bid_evaluation.hold_shapes

variable {β : Type} {settings : Settings β} {s t : System β}

/-- The texts of `uuid` and of a digest are hexadecimal. -/
structure HexSettings (settings : Settings β) : Prop where
  uuid : ∀ n, HexText (settings.env.uuid4.hex12 n)
  digest : ∀ text, HexText (settings.sha256 text)

/-! ## Blobs -/

/-- The names that a blob of an object can have. -/
def BlobName (object_type object_id filename : String) : Prop :=
  object_type = "document" ∧ DocumentId object_id ∨
    object_type = "report" ∧ EvaluationId object_id ∧ ReportName filename

/-- The address of a blob of the object. -/
def BlobUri (settings : Settings β) (tenant_id object_type object_id storage_uri : String) : Prop :=
  ∃ filename, BlobName object_type object_id filename ∧ storage_uri = uri_for_key settings.storage
    (build_key settings.storage tenant_id object_type object_id filename)

theorem BlobUri.in_folder {tenant_id object_type object_id storage_uri : String}
    (h : BlobUri settings tenant_id object_type object_id storage_uri) :
    ∀ p ∈ object_places settings.storage storage_uri, InFolder object_type object_id p := by
  obtain ⟨filename, ⟨rfl, hid⟩ | ⟨rfl, hid, hname⟩, rfl⟩ := h
  · exact document_places settings.storage hid tenant_id filename
  · exact report_in_folder settings.storage hid tenant_id hname.plain

/-- The id is a start and a draw that was made. -/
def DrawnId (settings : Settings β) (start : String) (draws : Nat) (id : String) : Prop :=
  ∃ n < draws, id = start ++ settings.env.uuid4.hex12 n

theorem DrawnId.mono {start id : String} {draws draws' : Nat} (h : DrawnId settings start draws id)
    (hle : draws ≤ draws') : DrawnId settings start draws' id := by
  obtain ⟨n, hlt, rfl⟩ := h
  exact ⟨n, lt_of_lt_of_le hlt hle, rfl⟩

theorem not_drawn_yet {start : String} {draws n : Nat} (hle : draws ≤ n) :
    ¬ DrawnId settings start draws (start ++ settings.env.uuid4.hex12 n) := by
  rintro ⟨m, hlt, heq⟩
  have htexts := congrArg String.toList heq
  rw [String.toList_append, String.toList_append] at htexts
  have hsame := settings.env.uuid4.distinct (String.ext (List.append_cancel_left htexts))
  omega

/-! ## The invariant -/

structure Shaped (settings : Settings β) (s : System β) : Prop where
  documents : ∀ id document, s.documents.get? id = some document →
    DrawnId settings "doc_" s.draws id ∧ ∀ uri, document.storage_uri = some uri →
      BlobUri settings document.tenant_id "document" id uri
  evaluations : ∀ id tenant_id, s.evaluations.get? id = some tenant_id →
    DrawnId settings "ev_" s.draws id
  reports : ∀ id report, s.evaluation_reports.get? id = some report →
    s.evaluations.get? id = some report.tenant_id ∧ ∀ uri, report.report_uri = some uri →
      BlobUri settings report.tenant_id "report" id uri
  holds : ∀ id hold, s.legal_hold_objects.get? id = some hold →
    DrawnId settings "hold_" s.draws id ∧ ∀ uri, hold.storage_uri = some uri →
      BlobUri settings hold.tenant_id hold.object_type hold.object_id uri

theorem shaped_empty (settings : Settings β) : Shaped settings System.empty :=
  ⟨fun _ _ h => (by cases h), fun _ _ h => (by cases h), fun _ _ h => (by cases h),
    fun _ _ h => (by cases h)⟩

theorem Shaped.same (h : Shaped settings s) (hsame : Same s t) : Shaped settings t where
  documents id document hget := by
    rw [hsame.documents] at hget
    exact ⟨(h.documents id document hget).1.mono hsame.draws, (h.documents id document hget).2⟩
  evaluations id tenant_id hget := by
    rw [hsame.evaluations] at hget
    exact (h.evaluations id tenant_id hget).mono hsame.draws
  reports id report hget := by
    rw [hsame.evaluation_reports] at hget
    rw [hsame.evaluations]
    exact h.reports id report hget
  holds id hold hget := by
    rw [hsame.legal_hold_objects] at hget
    exact ⟨(h.holds id hold hget).1.mono hsame.draws, (h.holds id hold hget).2⟩

theorem Shaped.put_hold (h : Shaped settings s) (hold : Hold)
    (hid : DrawnId settings "hold_" s.draws hold.hold_id)
    (huri : ∀ uri, hold.storage_uri = some uri →
      BlobUri settings hold.tenant_id hold.object_type hold.object_id uri) :
    Shaped settings { s with legal_hold_objects := s.legal_hold_objects.put hold } where
  documents := h.documents
  evaluations := h.evaluations
  reports := h.reports
  holds id found hget := by
    rw [Table.get?_put] at hget
    split at hget
    · cases hget
      rename_i heq
      exact ⟨heq ▸ hid, huri⟩
    · exact h.holds id found hget

theorem Shaped.put_document {document : StoredDocument} (h : Shaped settings s)
    (hid : DrawnId settings "doc_" s.draws document.document_id)
    (huri : ∀ uri, document.storage_uri = some uri →
      BlobUri settings document.tenant_id "document" document.document_id uri) :
    Shaped settings { s with documents := s.documents.put document } where
  documents id found hget := by
    rw [Table.get?_put] at hget
    split at hget
    · cases hget
      rename_i heq
      exact heq ▸ ⟨hid, huri⟩
    · exact h.documents id found hget
  evaluations := h.evaluations
  reports := h.reports
  holds := h.holds

theorem Shaped.put_report {report : StoredReport} (h : Shaped settings s)
    (hid : s.evaluations.get? report.evaluation_id = some report.tenant_id)
    (huri : ∀ uri, report.report_uri = some uri →
      BlobUri settings report.tenant_id "report" report.evaluation_id uri) :
    Shaped settings { s with evaluation_reports := s.evaluation_reports.put report } where
  documents := h.documents
  evaluations := h.evaluations
  reports id found hget := by
    rw [Table.get?_put] at hget
    split at hget
    · cases hget
      rename_i heq
      exact heq ▸ ⟨hid, huri⟩
    · exact h.reports id found hget
  holds := h.holds

/-- An evaluation gets a new id, so it takes the place of no other. -/
theorem Shaped.set_evaluation {n : Nat} {tenant_id : String} (h : Shaped settings s)
    (hnew : n < s.draws) (hfresh : s.evaluations.get? ("ev_" ++ settings.env.uuid4.hex12 n) = none) :
    Shaped settings { s with
      evaluations := s.evaluations.set ("ev_" ++ settings.env.uuid4.hex12 n) tenant_id } where
  documents := h.documents
  evaluations id found hget := by
    rw [Dict.get?_set] at hget
    split at hget
    · rename_i heq
      exact ⟨n, hnew, heq⟩
    · exact h.evaluations id found hget
  reports id report hget := by
    obtain ⟨hevaluation, huri⟩ := h.reports id report hget
    refine ⟨?_, huri⟩
    have hne : id ≠ "ev_" ++ settings.env.uuid4.hex12 n := by
      rintro rfl
      rw [hfresh] at hevaluation
      cases hevaluation
    rw [Dict.get?_set_of_ne _ _ hne]
    exact hevaluation
  holds := h.holds

/-! ## Objects and their blobs -/

def BlobOf (settings : Settings β) (s : System β)
    (tenant_id object_type object_id storage_uri : String) : Prop :=
  (object_type = "document" ∧ ∃ document, s.documents.get? object_id = some document ∧
    document.tenant_id = tenant_id ∧ document.storage_uri = some storage_uri) ∨
  (object_type = "report" ∧ s.evaluations.get? object_id = some tenant_id ∧
    ∃ filename, ReportName filename ∧ storage_uri = uri_for_key settings.storage
      (build_key settings.storage tenant_id "report" object_id filename))

variable {tenant_id object_type object_id storage_uri : String}

theorem DrawnId.evaluation_id {draws : Nat} {id : String} (hhex : HexSettings settings)
    (h : DrawnId settings "ev_" draws id) : EvaluationId id := by
  obtain ⟨n, -, rfl⟩ := h
  exact ⟨_, hhex.uuid n, rfl⟩

theorem BlobOf.uri (hhex : HexSettings settings) (h : Shaped settings s)
    (hblob : BlobOf settings s tenant_id object_type object_id storage_uri) :
    BlobUri settings tenant_id object_type object_id storage_uri := by
  rcases hblob with ⟨rfl, document, hget, rfl, huri⟩ | ⟨rfl, hget, filename, hname, rfl⟩
  · exact (h.documents _ _ hget).2 _ huri
  · exact ⟨filename, .inr ⟨rfl, (h.evaluations _ _ hget).evaluation_id hhex, hname⟩, rfl⟩

/-- Blobs that share a place are one blob of one object. -/
theorem blob_unique (hhex : HexSettings settings) (h : Shaped settings s)
    {tenant_id' object_type' object_id' storage_uri' : String}
    (hblob : BlobOf settings s tenant_id object_type object_id storage_uri)
    (hblob' : BlobOf settings s tenant_id' object_type' object_id' storage_uri') {p : Place}
    (hp : p ∈ object_places settings.storage storage_uri)
    (hp' : p ∈ object_places settings.storage storage_uri') :
    tenant_id = tenant_id' ∧ object_type = object_type' ∧ object_id = object_id' ∧
      storage_uri = storage_uri' := by
  obtain ⟨rfl, rfl⟩ := ((hblob.uri hhex h).in_folder p hp).unique ((hblob'.uri hhex h).in_folder p hp')
  rcases hblob with ⟨rfl, document, hget, rfl, huri⟩ | ⟨rfl, hget, filename, hname, rfl⟩
  · rcases hblob' with ⟨-, document', hget', rfl, huri'⟩ | ⟨hother, -⟩
    · cases hget.symm.trans hget'
      exact ⟨rfl, rfl, rfl, Option.some.inj (huri.symm.trans huri')⟩
    · exact absurd hother (by decide)
  · rcases hblob' with ⟨hother, -⟩ | ⟨-, hget', filename', hname', rfl⟩
    · exact absurd hother (by decide)
    · cases hget.symm.trans hget'
      have hid := (h.evaluations _ _ hget).evaluation_id hhex
      by_cases hsame : filename = filename'
      · exact ⟨rfl, rfl, rfl, by rw [hsame]⟩
      · exact absurd hp' (report_places_apart settings.storage hid _ hname hname' hsame p hp)

theorem usable_some {uri : Option String} {text : String} (h : usable uri = some text) :
    uri = some text := (Option.filter_eq_some_iff.1 h).1

/-- What an object resolves to is one of its blobs. -/
theorem blob_of_resolved (h : Shaped settings s)
    (hresolve : resolve_storage_uri s tenant_id object_type object_id = .ok (some storage_uri)) :
    BlobOf settings s tenant_id object_type object_id storage_uri := by
  unfold resolve_storage_uri at hresolve
  split at hresolve
  · rename_i htype
    unfold get_document_for_tenant at hresolve
    split at hresolve
    · cases hresolve
    · rename_i document hget
      split at hresolve
      · cases hresolve
      · rename_i htenant
        have huri : usable document.storage_uri = some storage_uri := Except.ok.inj hresolve
        exact .inl ⟨htype, document, hget, by simpa using htenant, usable_some huri⟩
  · split at hresolve
    · rename_i htype
      unfold get_evaluation_report_for_tenant at hresolve
      split at hresolve
      · cases hresolve
      · rename_i report hget
        split at hresolve
        · cases hresolve
        · rename_i htenant
          have huri : usable report.report_uri = some storage_uri := Except.ok.inj hresolve
          have htenant : report.tenant_id = tenant_id := by simpa using htenant
          obtain ⟨hevaluation, hshape⟩ := h.reports _ _ hget
          obtain ⟨filename, ⟨hother, -⟩ | ⟨-, -, hname⟩, rfl⟩ := hshape _ (usable_some huri)
          · exact absurd hother (by decide)
          · exact .inr ⟨htype, htenant ▸ hevaluation, filename, hname, by rw [htenant]⟩
    · cases hresolve

/-! ## Steps -/

theorem find_active_legal_hold.spec {hold : Hold}
    (h : find_active_legal_hold s tenant_id object_type object_id = some hold) :
    s.legal_hold_objects.get? hold.hold_id = some hold ∧ hold.tenant_id = tenant_id ∧
      hold.object_type = object_type ∧ hold.object_id = object_id ∧ hold.status = "active" := by
  unfold find_active_legal_hold at h
  have hmem := List.mem_of_find?_eq_some h
  have hfields := List.find?_some h
  simp only [decide_eq_true_eq] at hfields
  exact ⟨(Table.mem_values_iff _ _).1 hmem, hfields⟩

/-- A put that returns gives the address of its key. -/
theorem put_object_address {storage : LocalObjectStorage β} {now : Time} {args : PutArgs β}
    {files : FileTree β} {uri : String} (h : (put_object storage now args).result files = .ok uri) :
    uri = address storage args := by
  unfold put_object at h
  dsimp only at h
  rcases hexists : (path_exists storage (path_for_key storage (key_of storage args))).result files
    with e | there
  · rw [result_bind_error hexists] at h
    cases h
  · rw [result_bind hexists] at h
    split at h
    · cases h
      rfl
    · generalize (path_exists storage _).final files = files' at h
      rcases hwrite : (write_object storage now (path_for_key storage (key_of storage args)) args).result
        files' with e | u
      · rw [result_bind_error hwrite] at h
        cases h
      · rw [result_bind hwrite] at h
        cases h
        rfl

/-- Documents, evaluations and reports are as they were. -/
structure HoldsOnly (s t : System β) : Prop where
  documents : t.documents = s.documents
  evaluations : t.evaluations = s.evaluations
  evaluation_reports : t.evaluation_reports = s.evaluation_reports
  draws : s.draws ≤ t.draws

theorem apply_hold.spec (s : System β) :
    Meets AnyStep (apply_hold settings storage_uri) s (fun _ t => Same s t ∧
      t.files = (apply_legal_hold settings.storage (settings.env.clock s.draws) storage_uri).final s.files) := by
  rw [apply_hold, meets_bind, meets_moment, then_ok, meets_on_files]
  exact ⟨⟨rfl, rfl, rfl, rfl, Nat.le_succ _⟩, rfl⟩

theorem move_hold.shapes (uri : String) {active_hold : Option Hold} (h : Shaped settings s)
    (hhold : ∀ hold, active_hold = some hold → s.legal_hold_objects.get? hold.hold_id = some hold ∧
      BlobUri settings hold.tenant_id hold.object_type hold.object_id uri) :
    Meets AnyStep (move_hold settings uri active_hold) s
      (fun _ t => Shaped settings t ∧ HoldsOnly s t) := by
  cases active_hold with
  | none =>
    rw [move_hold, meets_pure]
    exact ⟨h, rfl, rfl, rfl, le_refl _⟩
  | some hold =>
    obtain ⟨hget, hshape⟩ := hhold hold rfl
    rw [move_hold, hold_store.put_hold, meets_bind, meets_update, then_ok]
    have hput := h.put_hold { hold with storage_uri := some uri }
      (h.holds _ _ hget).1 (by
        intro other hother
        cases hother
        exact hshape)
    refine (apply_hold.spec _).bind ?_ ?_
    · rintro _ t ⟨hsame, -⟩
      rw [meets_pure]
      exact ⟨hput.same hsame, hsame.documents, hsame.evaluations, hsame.evaluation_reports, hsame.draws⟩
    · rintro e t ⟨hsame, -⟩
      exact ⟨hput.same hsame, hsame.documents, hsame.evaluations, hsame.evaluation_reports, hsame.draws⟩

theorem put_held_object.shapes {args : PutArgs β} (h : Shaped settings s)
    (hname : BlobName args.object_type args.object_id args.filename) :
    Meets AnyStep (put_held_object settings args) s (fun r t => Shaped settings t ∧ HoldsOnly s t ∧
      ∀ uri, r = .ok uri → uri = address settings.storage args) := by
  rw [put_held_object, meets_bind, meets_moment, then_ok, meets_bind, meets_on_files]
  have hsame : Same s { s with
      files := (put_object settings.storage (settings.env.clock s.draws) args).final s.files
      draws := s.draws + 1 } := ⟨rfl, rfl, rfl, rfl, Nat.le_succ _⟩
  rcases hput : (put_object settings.storage (settings.env.clock s.draws) args).result s.files
    with e | uri
  · exact ⟨h.same hsame, ⟨rfl, rfl, rfl, hsame.draws⟩, fun _ he => by cases he⟩
  · have huri := put_object_address hput
    rw [then_ok, meets_bind, meets_read, then_ok]
    have hmove := move_hold.shapes uri (h.same hsame) (by
      intro hold hfound
      obtain ⟨hget, htenant, htype, hid, -⟩ := find_active_legal_hold.spec hfound
      refine ⟨hget, args.filename, ?_, ?_⟩
      · rw [htype, hid]
        exact hname
      · rw [huri, htenant, htype, hid]
        rfl)
    refine hmove.bind ?_ ?_
    · rintro _ t ⟨hshaped, honly⟩
      rw [meets_pure]
      exact ⟨hshaped, ⟨honly.documents, honly.evaluations, honly.evaluation_reports,
        (Nat.le_succ _).trans honly.draws⟩, fun _ hu => by cases hu; exact huri⟩
    · rintro e t ⟨hshaped, honly⟩
      exact ⟨hshaped, ⟨honly.documents, honly.evaluations, honly.evaluation_reports,
        (Nat.le_succ _).trans honly.draws⟩, fun _ he => by cases he⟩

theorem document_id (hhex : HexSettings settings) (n : Nat) :
    DocumentId ("doc_" ++ settings.env.uuid4.hex12 n) := ⟨_, hhex.uuid n, rfl⟩

theorem create_upload_job.shapes (hhex : HexSettings settings) {file : Upload β}
    (h : Shaped settings s) :
    Meets AnyStep (create_upload_job settings file) s (fun _ t => Shaped settings t) := by
  rw [create_upload_job, meets_bind, meets_read, then_ok]
  rcases duplicate_of s file with _ | existing
  · dsimp only
    rw [meets_bind, meets_uuid4_hex12, then_ok]
    have hdrawn : Shaped settings { s with draws := s.draws + 1 } :=
      h.same ⟨rfl, rfl, rfl, rfl, Nat.le_succ _⟩
    have hput : Meets AnyStep (put_upload settings file ("doc_" ++ settings.env.uuid4.hex12 s.draws))
        { s with draws := s.draws + 1 } (fun r t => Shaped settings t ∧ s.draws < t.draws ∧
          ∀ uri, r = .ok (some uri) → BlobUri settings file.tenant_id "document"
            ("doc_" ++ settings.env.uuid4.hex12 s.draws) uri) := by
      unfold put_upload
      rcases file.file_bytes with _ | file_bytes
      · dsimp only
        rw [meets_pure]
        exact ⟨hdrawn, Nat.lt_succ_self _, fun _ he => by cases he⟩
      · dsimp only
        refine (put_held_object.shapes hdrawn (.inl ⟨rfl, document_id hhex s.draws⟩)).bind ?_ ?_
        · rintro uri t ⟨hshaped, honly, huri⟩
          rw [meets_pure]
          refine ⟨hshaped, honly.draws, fun other he => ?_⟩
          cases he
          exact ⟨_, .inl ⟨rfl, document_id hhex s.draws⟩, huri uri rfl⟩
        · rintro e t ⟨hshaped, honly, -⟩
          exact ⟨hshaped, honly.draws, fun _ he => by cases he⟩
    refine hput.bind ?_ fun e t ht => ht.1
    rintro storage_uri t ⟨hshaped, hdraws, huri⟩
    rw [meets_bind, meets_update, then_ok, meets_pure]
    refine hshaped.put_document ⟨s.draws, hdraws, rfl⟩ fun uri he => ?_
    exact huri uri (congrArg Except.ok he)
  · dsimp only
    rw [meets_pure]
    exact h

theorem create_evaluation.shapes (h : Shaped settings s) :
    Meets AnyStep (create_evaluation settings tenant_id) s (fun _ t => Shaped settings t) := by
  rw [create_evaluation, meets_bind, meets_uuid4_hex12, then_ok, meets_bind, meets_update, then_ok,
    meets_pure]
  have hdrawn : Shaped settings { s with draws := s.draws + 1 } :=
    h.same ⟨rfl, rfl, rfl, rfl, Nat.le_succ _⟩
  refine hdrawn.set_evaluation (Nat.lt_succ_self _) ?_
  by_contra hold
  obtain ⟨tenant, htenant⟩ := Option.ne_none_iff_exists'.1 hold
  exact not_drawn_yet (le_refl _) (h.evaluations _ _ htenant)

theorem report_name (hhex : HexSettings settings) (payload : PyDict) :
    ReportName (build_report_filename settings payload) := by
  refine ⟨_, fun c hc => ?_, rfl⟩
  have htext : (String.ofList ((settings.sha256
      (routes.dumps settings.env (.dict payload))).toList.take 12)).toList =
        (settings.sha256 (routes.dumps settings.env (.dict payload))).toList.take 12 :=
    String.toList_ofList
  rw [htext] at hc
  exact hhex.digest _ c (List.mem_of_mem_take hc)

theorem archive_report.shapes (hhex : HexSettings settings) {evaluation_id : String}
    {fields : PyDict} (h : Shaped settings s) :
    Meets AnyStep (archive_report settings evaluation_id fields) s (fun _ t => Shaped settings t) := by
  rw [archive_report, meets_bind, meets_read, then_ok]
  rcases hevaluation : s.evaluations.get? evaluation_id with _ | tenant
  · dsimp only
    rw [meets_pure]
    exact h
  · dsimp only
    have hid := h.evaluations _ _ hevaluation |>.evaluation_id hhex
    have hne : evaluation_id ≠ "" := hid.plain.nonempty
    rw [persist_evaluation_report, archive_report_to_object_storage, if_neg hne, then_assoc]
    refine (put_held_object.shapes h (.inr ⟨rfl, hid, report_name hhex _⟩)).bind ?_ fun e t ht => ht.1
    rintro uri t ⟨hshaped, honly, huri⟩
    rw [meets_bind, meets_pure, then_ok, meets_update]
    refine hshaped.put_report (honly.evaluations ▸ hevaluation) fun other he => ?_
    cases he
    exact ⟨_, .inr ⟨rfl, hid, report_name hhex _⟩, huri uri rfl⟩

theorem apply_stored.spec {storage_uri : Option String} (s : System β) :
    Meets AnyStep (apply_stored settings storage_uri) s (fun _ t => Same s t) := by
  cases storage_uri with
  | none =>
    rw [apply_stored, meets_pure]
    exact .refl s
  | some uri =>
    rw [apply_stored]
    refine (apply_hold.spec s).bind (fun _ t ht => ?_) fun _ t ht => ht.1
    rw [meets_pure]
    exact ht.1

theorem impose_new.shapes (hhex : HexSettings settings) {args : ImposeArgs}
    (h : Shaped settings s) :
    Meets AnyStep (impose_new settings args) s (fun _ t => Shaped settings t) := by
  rw [impose_new, meets_bind, meets_uuid4_hex12, then_ok, meets_bind, meets_utcnow_iso, then_ok,
    meets_bind, meets_read, then_ok, meets_bind, meets_lift]
  have hdrawn : Shaped settings { s with draws := s.draws + 1 + 1 } :=
    h.same ⟨rfl, rfl, rfl, rfl, Nat.le_add_right _ 2⟩
  rcases hresolve : resolve_storage_uri { s with draws := s.draws + 1 + 1 } args.tenant_id
    (strip args.object_type) (strip args.object_id) with e | storage_uri
  · exact hdrawn
  · rw [then_ok]
    refine (apply_stored.spec _).bind ?_ fun e t ht => hdrawn.same ht
    intro _ t ht
    rw [hold_store.put_hold, meets_bind, meets_update, then_ok, meets_bind, meets_append_audit_log,
      then_ok, meets_pure]
    have hlt : s.draws < t.draws := lt_of_lt_of_le (show s.draws < s.draws + 1 + 1 by omega) ht.draws
    refine ((hdrawn.same ht).put_hold _ ⟨s.draws, hlt, rfl⟩ ?_).same
      ⟨rfl, rfl, rfl, rfl, Nat.le_add_right _ 2⟩
    rintro uri huri
    cases (show storage_uri = some uri from huri)
    exact (blob_of_resolved hdrawn hresolve).uri hhex hdrawn

theorem impose_legal_hold.shapes (hhex : HexSettings settings) {args : ImposeArgs}
    (h : Shaped settings s) :
    Meets AnyStep (impose_legal_hold settings args) s (fun _ t => Shaped settings t) := by
  unfold impose_legal_hold
  split
  · unfold raise_api
    rw [meets_raise]
    exact h
  · rw [meets_bind, meets_read, then_ok]
    rcases find_active_legal_hold s args.tenant_id args.object_type args.object_id with _ | existing
    · exact impose_new.shapes hhex h
    · dsimp only
      rw [meets_pure]
      exact h

theorem check_release.spec {args : ReleaseArgs} {hold : Hold} (h : check_release s args = .ok hold) :
    s.legal_hold_objects.get? args.hold_id = some hold ∧ hold.tenant_id = args.tenant_id ∧
      hold.status = "active" := by
  unfold check_release at h
  split at h
  · cases h
  · rename_i found hget
    split at h
    · cases h
    · rename_i htenant
      split at h
      · cases h
      · rename_i hstatus
        split at h
        · cases h
        · cases h
          exact ⟨hget, by simpa using htenant, by simpa using hstatus⟩

theorem hold_key {id : String} {hold : Hold} (h : s.legal_hold_objects.get? id = some hold) :
    hold.hold_id = id := s.legal_hold_objects.keyed id hold h

theorem release_stored.spec {storage_uri : Option String} (s : System β) :
    Meets AnyStep (release_stored settings storage_uri) s (fun _ t => Same s t ∧
      (storage_uri = none → t.files = s.files) ∧ ∀ uri, storage_uri = some uri → t.files =
        (object_storage.release_legal_hold settings.storage (settings.env.clock s.draws) uri).final
          s.files) := by
  cases storage_uri with
  | none =>
    rw [release_stored, meets_pure]
    exact ⟨.refl s, fun _ => rfl, fun _ he => by cases he⟩
  | some uri =>
    rw [release_stored, meets_bind, meets_moment, then_ok, meets_bind, meets_on_files]
    have hdone : Same s { s with
        files := (object_storage.release_legal_hold settings.storage (settings.env.clock s.draws)
          uri).final s.files
        draws := s.draws + 1 } := ⟨rfl, rfl, rfl, rfl, Nat.le_succ _⟩
    rcases (object_storage.release_legal_hold settings.storage (settings.env.clock s.draws)
      uri).result s.files with e | done
    · exact ⟨hdone, fun he => (by cases he), fun _ he => by cases he; rfl⟩
    · rw [then_ok, meets_pure]
      exact ⟨hdone, fun he => (by cases he), fun _ he => by cases he; rfl⟩

theorem blob_of_hold.shapes (hhex : HexSettings settings) (h : Shaped settings s) {hold : Hold}
    (hshape : ∀ uri, hold.storage_uri = some uri →
      BlobUri settings hold.tenant_id hold.object_type hold.object_id uri) {uri : String}
    (hblob : blob_of_hold s hold = .ok (some uri)) :
    BlobUri settings hold.tenant_id hold.object_type hold.object_id uri := by
  unfold blob_of_hold at hblob
  split at hblob
  · rename_i named hnamed
    cases hblob
    exact hshape _ (usable_some hnamed)
  · exact (blob_of_resolved h hblob).uri hhex h

theorem release_legal_hold.shapes (hhex : HexSettings settings) {args : ReleaseArgs}
    (h : Shaped settings s) :
    Meets AnyStep (hold_store.release_legal_hold settings args) s (fun _ t => Shaped settings t) := by
  unfold hold_store.release_legal_hold hold_store.put_hold
  rw [meets_bind, meets_read, then_ok, meets_bind, meets_lift]
  rcases hcheck : check_release s args with e | hold
  · exact h
  obtain ⟨hget, -, -⟩ := check_release.spec hcheck
  obtain ⟨hdrawn, hshape⟩ := h.holds _ _ hget
  rw [← hold_key hget] at hdrawn
  rw [then_ok, meets_bind, meets_utcnow_iso, then_ok]
  dsimp only
  rw [meets_bind, meets_update, then_ok, meets_bind, meets_read, then_ok, meets_bind, meets_lift]
  have hreleased := (h.same (t := { s with draws := s.draws + 1 })
    ⟨rfl, rfl, rfl, rfl, Nat.le_succ _⟩).put_hold
      (released hold args (settings.storage.library.isoformat (settings.env.clock s.draws)))
      (hdrawn.mono (Nat.le_succ _)) hshape
  rcases hblob : blob_of_hold _ (released hold args _) with e | storage_uri
  · exact hreleased
  rw [then_ok]
  dsimp only
  rw [meets_bind, meets_update, then_ok]
  have hnamed := hreleased.put_hold
    { released hold args (settings.storage.library.isoformat (settings.env.clock s.draws))
      with storage_uri := storage_uri.or hold.storage_uri }
    (hdrawn.mono (Nat.le_succ _)) (by
      intro uri huri
      rcases Option.or_eq_some_iff.1 huri with hfound | ⟨-, hkept⟩
      · cases (show storage_uri = some uri from hfound)
        exact blob_of_hold.shapes hhex hreleased hshape hblob
      · exact hshape _ hkept)
  refine (release_stored.spec _).bind ?_ fun e t ht => hnamed.same ht.1
  rintro _ t ⟨hsame, -⟩
  rw [meets_bind, meets_append_audit_log, then_ok, meets_pure]
  exact (hnamed.same hsame).same ⟨rfl, rfl, rfl, rfl, Nat.le_add_right _ 2⟩

/-! ## Modes -/

/-- The modes of the storage do not matter for an address. -/
theorem address_under (modes : Modes) (filename : String) :
    uri_for_key (settings.under modes).storage
        (build_key (settings.under modes).storage tenant_id object_type object_id filename) =
      uri_for_key settings.storage
        (build_key settings.storage tenant_id object_type object_id filename) := by
  unfold uri_for_key build_key
  rfl

theorem blob_uri_under (modes : Modes) :
    BlobUri (settings.under modes) tenant_id object_type object_id storage_uri ↔
      BlobUri settings tenant_id object_type object_id storage_uri := by
  unfold BlobUri
  simp only [address_under]

theorem blob_under (modes : Modes) :
    BlobOf (settings.under modes) s tenant_id object_type object_id storage_uri ↔
      BlobOf settings s tenant_id object_type object_id storage_uri := by
  unfold BlobOf
  simp only [address_under]

theorem shaped_under (modes : Modes) :
    Shaped (settings.under modes) s ↔ Shaped settings s := by
  constructor
  · intro h
    exact ⟨fun id document hget => ⟨(h.documents id document hget).1, fun uri huri =>
        (blob_uri_under modes).1 ((h.documents id document hget).2 uri huri)⟩,
      h.evaluations,
      fun id report hget => ⟨(h.reports id report hget).1, fun uri huri =>
        (blob_uri_under modes).1 ((h.reports id report hget).2 uri huri)⟩,
      fun id hold hget => ⟨(h.holds id hold hget).1, fun uri huri =>
        (blob_uri_under modes).1 ((h.holds id hold hget).2 uri huri)⟩⟩
  · intro h
    exact ⟨fun id document hget => ⟨(h.documents id document hget).1, fun uri huri =>
        (blob_uri_under modes).2 ((h.documents id document hget).2 uri huri)⟩,
      h.evaluations,
      fun id report hget => ⟨(h.reports id report hget).1, fun uri huri =>
        (blob_uri_under modes).2 ((h.reports id report hget).2 uri huri)⟩,
      fun id hold hget => ⟨(h.holds id hold hget).1, fun uri huri =>
        (blob_uri_under modes).2 ((h.holds id hold hget).2 uri huri)⟩⟩

/-! ## Runs -/

/-- Every request keeps the shapes, whether it returns or raises. -/
theorem shaped_step (hhex : HexSettings settings) (request : Request β) (h : Shaped settings s) :
    Shaped settings ((hold_store.machine settings).step s request).1 := by
  obtain ⟨modes, op⟩ := request
  have hquiet : ∀ {α : Type} {m : HoldAct β α},
      Meets AnyStep m s (fun _ t => Shaped (settings.under modes) t) →
        Shaped settings ((quiet m).final s) := by
    intro α m hm
    rw [quiet, final_bind_pure]
    exact (shaped_under modes).1 hm.2
  have hunder : HexSettings (settings.under modes) := ⟨hhex.uuid, hhex.digest⟩
  have hshaped := (shaped_under modes).2 h
  show Shaped settings ((op.act (settings.under modes)).final s)
  cases op with
  | upload file => exact hquiet (create_upload_job.shapes hunder hshaped)
  | create_evaluation tenant_id => exact hquiet (create_evaluation.shapes hshaped)
  | archive_report evaluation_id fields =>
    exact (shaped_under modes).1 (archive_report.shapes hunder hshaped).2
  | impose args => exact hquiet (impose_legal_hold.shapes hunder hshaped)
  | release args => exact hquiet (release_legal_hold.shapes hunder hshaped)
  | cleanup args =>
    exact hquiet ((execute_storage_cleanup.spec _ args s).post fun _ _ hclean => hshaped.same hclean.same)

theorem shaped_after (hhex : HexSettings settings) (requests : List (Request β)) :
    Shaped settings ((hold_store.machine settings).after requests) := by
  induction requests using List.reverseRecOn with
  | nil => exact shaped_empty settings
  | append_singleton requests request ih =>
    rw [Machine.after_concat]
    exact shaped_step hhex request ih

/-! ## An instance -/

/-- Identifiers and digests in unary, and the plain library. -/
def plain_settings : Settings FileText where
  env := operations.calm_env
  sha256 _ := "0"
  dump_report := .json
  storage := protection_laws.loose_storage

theorem plain_hex : HexSettings plain_settings where
  uuid n c hc := by
    have htext : (plain_settings.env.uuid4.hex12 n).toList = List.replicate n 'a' :=
      String.toList_ofList
    rw [htext] at hc
    rw [List.eq_of_mem_replicate hc]
    decide
  digest _ := show ∀ c ∈ "0".toList, is_hex c = true by decide

def loose : Modes := ⟨false, 0, "GOVERNANCE"⟩

def bid_upload : Upload FileText := ⟨"tenant", "bid.pdf", "", some (.text "bid"), none⟩

end bid_evaluation.hold_shapes
