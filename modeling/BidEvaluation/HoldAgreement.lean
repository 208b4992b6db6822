-- The law of legal holds: the records and the flags of the blobs agree, in
-- every run in which no step runs into one of three slips. An impose looks up
-- the names as they come, a release knows one blob only, and a put that raises
-- can leave a file without its sidecar.
import BidEvaluation.ReportArchive

open dict_lib file_tree stepwise lockstep bid_evaluation.values bid_evaluation.object_storage
  bid_evaluation.object_frames bid_evaluation.worm_laws bid_evaluation.protection_laws
  bid_evaluation.blob_places bid_evaluation.blob_flags bid_evaluation.hold_store
  bid_evaluation.hold_steps bid_evaluation.hold_shapes bid_evaluation.hold_ends
open bid_evaluation.report_archive (LeadsBack hex_under json_settings write_once)
open bid_evaluation.endings (AnyStep)

namespace bid_evaluation.hold_agreement

variable {β : Type} {settings : Settings β} {s t : System β}

/-! ## Objects and their holds -/

abbrev Holds := Table Hold.hold_id

/-- An active record of the object. -/
def ActiveIn (holds : Holds) (o : Object) : Prop :=
  ∃ id hold, holds.get? id = some hold ∧ held_object hold = o ∧ hold.status = "active"

def OneIn (holds : Holds) : Prop :=
  ∀ id id' hold hold', holds.get? id = some hold → holds.get? id' = some hold' →
    held_object hold = held_object hold' → hold.status = "active" → hold'.status = "active" → id = id'

def Active (s : System β) (o : Object) : Prop := ActiveIn s.legal_hold_objects o

def Blob (settings : Settings β) (s : System β) (o : Object) (storage_uri : String) : Prop :=
  BlobOf settings s o.tenant_id o.object_type o.object_id storage_uri

/-- The blob that the document or the report names. -/
def Current (s : System β) (o : Object) (storage_uri : String) : Prop :=
  (o.object_type = "document" ∧ ∃ document, s.documents.get? o.object_id = some document ∧
    document.tenant_id = o.tenant_id ∧ document.storage_uri = some storage_uri) ∨
  (o.object_type = "report" ∧ ∃ report, s.evaluation_reports.get? o.object_id = some report ∧
    report.tenant_id = o.tenant_id ∧ report.report_uri = some storage_uri)

/-- Records and flags agree. -/
structure HoldsAgree (settings : Settings β) (s : System β) : Prop where
  one : OneIn s.legal_hold_objects
  current : ∀ o storage_uri content, Current s o storage_uri →
    Stored settings.storage storage_uri content s.files →
      (Held settings.storage storage_uri s.files ↔ Active s o)
  archived : ∀ o storage_uri, Blob settings s o storage_uri →
    Held settings.storage storage_uri s.files → Active s o

theorem find_iff (s : System β) (tenant_id object_type object_id : String) :
    find_active_legal_hold s tenant_id object_type object_id = none ↔
      ¬Active s ⟨tenant_id, object_type, object_id⟩ := by
  constructor
  · rintro hnone ⟨id, hold, hget, hobject, hstatus⟩
    unfold find_active_legal_hold at hnone
    cases hobject
    have hkey := s.legal_hold_objects.key_of_get? hget
    have hmem : hold ∈ s.legal_hold_objects.values :=
      (Table.mem_values_iff _ hold).2 (by rw [hkey]; exact hget)
    have hno := List.find?_eq_none.1 hnone hold hmem
    simp [hstatus] at hno
  · intro hactive
    rcases hfound : find_active_legal_hold s tenant_id object_type object_id with _ | hold
    · rfl
    · obtain ⟨hget, htenant, htype, hid, hstatus⟩ := find_active_legal_hold.spec hfound
      refine absurd ⟨hold.hold_id, hold, hget, ?_, hstatus⟩ hactive
      rw [held_object, htenant, htype, hid]

/-! ## Writes of the records -/

section records

variable {holds : Holds} {hold hold' : Hold}

theorem active_congr {holds' : Holds} (h : ∀ id, holds'.get? id = holds.get? id) (o : Object) :
    ActiveIn holds' o ↔ ActiveIn holds o := by
  unfold ActiveIn
  simp only [h]

theorem one_congr {holds' : Holds} (h : ∀ id, holds'.get? id = holds.get? id) :
    OneIn holds' ↔ OneIn holds := by
  unfold OneIn
  simp only [h]

/-- A record that names another blob. -/
theorem active_put_same (hget : holds.get? hold.hold_id = some hold)
    (hid : hold'.hold_id = hold.hold_id) (hobject : held_object hold' = held_object hold)
    (hstatus : hold'.status = hold.status) (o : Object) :
    ActiveIn (holds.put hold') o ↔ ActiveIn holds o := by
  constructor
  · rintro ⟨id, found, hfound, rfl, hactive⟩
    rw [Table.get?_put] at hfound
    split at hfound
    · cases hfound
      exact ⟨hold.hold_id, hold, hget, hobject.symm, hstatus ▸ hactive⟩
    · exact ⟨id, found, hfound, rfl, hactive⟩
  · rintro ⟨id, found, hfound, rfl, hactive⟩
    by_cases heq : id = hold'.hold_id
    · rw [heq, hid, hget] at hfound
      cases hfound
      exact ⟨hold'.hold_id, hold', holds.get?_put_self hold', hobject, hstatus.trans hactive⟩
    · exact ⟨id, found, by rw [Table.get?_put, if_neg heq]; exact hfound, rfl, hactive⟩

theorem one_put_same (hone : OneIn holds) (hget : holds.get? hold.hold_id = some hold)
    (hid : hold'.hold_id = hold.hold_id) (hobject : held_object hold' = held_object hold)
    (hstatus : hold'.status = "active" → hold.status = "active") : OneIn (holds.put hold') := by
  -- each record stands for one that was there, with the same id and object
  have hbefore : ∀ id found, (holds.put hold').get? id = some found → found.status = "active" →
      ∃ old, holds.get? id = some old ∧ held_object old = held_object found ∧ old.status = "active" := by
    intro id found hfound hactive
    rw [Table.get?_put] at hfound
    split at hfound
    · rename_i heq
      cases hfound
      exact ⟨hold, by rw [heq, hid]; exact hget, hobject.symm, hstatus hactive⟩
    · exact ⟨found, hfound, rfl, hactive⟩
  intro id id' a a' ha ha' hsame hactive hactive'
  obtain ⟨old, hold, hobject, hstatus⟩ := hbefore id a ha hactive
  obtain ⟨old', hold', hobject', hstatus'⟩ := hbefore id' a' ha' hactive'
  exact hone id id' old old' hold hold' (hobject.trans (hsame.trans hobject'.symm)) hstatus hstatus'

/-- A record that is no more active. -/
theorem active_put_released (hone : OneIn holds) (hget : holds.get? hold.hold_id = some hold)
    (hactive : hold.status = "active") (hid : hold'.hold_id = hold.hold_id)
    (hstatus : hold'.status ≠ "active") (o : Object) :
    ActiveIn (holds.put hold') o ↔ ActiveIn holds o ∧ o ≠ held_object hold := by
  constructor
  · rintro ⟨id, found, hfound, rfl, hfoundactive⟩
    rw [Table.get?_put] at hfound
    split at hfound
    · cases hfound
      exact absurd hfoundactive hstatus
    · rename_i hne
      refine ⟨⟨id, found, hfound, rfl, hfoundactive⟩, fun hsame => hne ?_⟩
      rw [hid]
      exact hone id hold.hold_id found hold hfound hget hsame hfoundactive hactive
  · rintro ⟨⟨id, found, hfound, rfl, hfoundactive⟩, hne⟩
    have hother : id ≠ hold'.hold_id := by
      rintro rfl
      rw [hid, hget] at hfound
      cases hfound
      exact hne rfl
    exact ⟨id, found, by rw [Table.get?_put, if_neg hother]; exact hfound, rfl, hfoundactive⟩

/-- A new record. -/
theorem active_put_new (hnew : holds.get? hold.hold_id = none) (hactive : hold.status = "active")
    (o : Object) : ActiveIn (holds.put hold) o ↔ ActiveIn holds o ∨ o = held_object hold := by
  constructor
  · rintro ⟨id, found, hfound, rfl, hfoundactive⟩
    rw [Table.get?_put] at hfound
    split at hfound
    · cases hfound
      exact .inr rfl
    · exact .inl ⟨id, found, hfound, rfl, hfoundactive⟩
  · rintro (⟨id, found, hfound, rfl, hfoundactive⟩ | rfl)
    · have hother : id ≠ hold.hold_id := by
        rintro rfl
        rw [hnew] at hfound
        cases hfound
      exact ⟨id, found, by rw [Table.get?_put, if_neg hother]; exact hfound, rfl, hfoundactive⟩
    · exact ⟨hold.hold_id, hold, holds.get?_put_self hold, rfl, hactive⟩

theorem one_put_new (hone : OneIn holds) (hfree : ¬ActiveIn holds (held_object hold)) :
    OneIn (holds.put hold) := by
  intro id id' a a' ha ha' hsame hactive hactive'
  rw [Table.get?_put] at ha ha'
  split at ha <;> split at ha'
  · rename_i heq heq'
    rw [heq, heq']
  · cases ha
    exact absurd ⟨id', a', ha', hsame.symm, hactive'⟩ hfree
  · cases ha'
    exact absurd ⟨id, a, ha, hsame, hactive⟩ hfree
  · exact hone id id' a a' ha ha' hsame hactive hactive'

end records

/-! ## The invariant -/

/-- How the ids of the objects of a type start. -/
def id_start (object_type : String) : String := if object_type = "document" then "doc_" else "ev_"

/-- The blob that a record names is one of its object. In an upload that
raises, the document of the blob is not stored. -/
def Named (settings : Settings β) (s : System β) (o : Object) (storage_uri : String) : Prop :=
  Blob settings s o storage_uri ∨
    (o.object_type = "document" ∧ s.documents.get? o.object_id = none ∧
      DrawnId settings "doc_" s.draws o.object_id)

/-- A blob that is as it has to be. -/
structure Right (settings : Settings β) (s : System β) (o : Object) (storage_uri : String) : Prop where
  whole : Whole settings.storage storage_uri s.files
  flagged : Flagged settings.storage storage_uri s.files → Active s o
  current : Current s o storage_uri → There settings.storage storage_uri s.files → Active s o →
    Flagged settings.storage storage_uri s.files

structure Agreed (settings : Settings β) (s : System β) : Prop where
  shaped : Shaped settings s
  drawn : ∀ p content object_type id, s.files.get? p = some (.file content) →
    InFolder object_type id p → DrawnId settings (id_start object_type) s.draws id
  named : ∀ id hold storage_uri, s.legal_hold_objects.get? id = some hold →
    hold.storage_uri = some storage_uri → Named settings s (held_object hold) storage_uri
  one : OneIn s.legal_hold_objects
  blobs : ∀ o storage_uri, Blob settings s o storage_uri → Right settings s o storage_uri

theorem agreed_empty (settings : Settings β) : Agreed settings System.empty where
  shaped := shaped_empty settings
  drawn _ _ _ _ h _ := by cases h
  named _ _ _ h _ := by cases h
  one _ _ _ _ h _ _ _ _ := by cases h
  blobs o storage_uri h := by
    rcases h with ⟨-, document, h, -⟩ | ⟨-, h, -⟩
    · cases h
    · cases h

theorem Current.blob (h : Shaped settings s) {o : Object} {storage_uri : String}
    (hcurrent : Current s o storage_uri) : Blob settings s o storage_uri := by
  rcases hcurrent with ⟨htype, document, hget, htenant, huri⟩ | ⟨htype, report, hget, htenant, huri⟩
  · exact .inl ⟨htype, document, hget, htenant, huri⟩
  · obtain ⟨hevaluation, hshape⟩ := h.reports _ _ hget
    obtain ⟨filename, ⟨hother, -⟩ | ⟨-, -, hname⟩, rfl⟩ := hshape _ huri
    · exact absurd hother (by decide)
    · exact .inr ⟨htype, htenant ▸ hevaluation, filename, hname, by rw [htenant]⟩

/-- The invariant says that records and flags agree. -/
theorem Agreed.holds_agree (h : Agreed settings s) : HoldsAgree settings s where
  one := h.one
  current o storage_uri content hcurrent hstored := by
    have hright := h.blobs o storage_uri (hcurrent.blob h.shaped)
    have hthere : There settings.storage storage_uri s.files := by
      rcases hpath : path_for_uri settings.storage storage_uri with e | path
      · unfold Stored get_object at hstored
        rw [hpath] at hstored
        cases hstored
      · exact ⟨path, content, hpath, lookup_file ((stored_iff hpath).1 hstored).2⟩
    rw [hright.whole.held_iff]
    exact ⟨hright.flagged, hright.current hcurrent hthere⟩
  archived o storage_uri hblob hheld := by
    have hright := h.blobs o storage_uri hblob
    exact hright.flagged (hright.whole.held_iff.1 hheld)

/-! ## Frames -/

theorem Right.elsewhere {S : Set Place} {o : Object} {storage_uri : String}
    (h : Right settings s o storage_uri) (hfiles : KeepsFiles S s.files t.files)
    (hout : ∀ p ∈ object_places settings.storage storage_uri, p ∉ S)
    (hflagged : Flagged settings.storage storage_uri s.files → Active s o → Active t o)
    (hcurrent : Current t o storage_uri → Active t o → Current s o storage_uri ∧ Active s o) :
    Right settings t o storage_uri where
  whole := h.whole.elsewhere hfiles hout
  flagged hflag := by
    have hbefore := (flagged_elsewhere hfiles hout).1 hflag
    exact hflagged hbefore (h.flagged hbefore)
  current hnow hthere hactive := by
    obtain ⟨hbefore, hheld⟩ := hcurrent hnow hactive
    exact (flagged_elsewhere hfiles hout).2
      (h.current hbefore ((there_elsewhere hfiles hout).1 hthere) hheld)

/-- The places of two blobs are apart. -/
theorem apart (hhex : HexSettings settings) (h : Shaped settings s) {o o' : Object}
    {storage_uri storage_uri' : String} (hblob : Blob settings s o storage_uri)
    (hblob' : Blob settings s o' storage_uri') (hne : ¬(o = o' ∧ storage_uri = storage_uri')) :
    ∀ p ∈ object_places settings.storage storage_uri,
      p ∉ {p | p ∈ object_places settings.storage storage_uri'} := by
  intro p hp hp'
  obtain ⟨htenant, htype, hid, huri⟩ := blob_unique hhex h hblob hblob' hp hp'
  refine hne ⟨?_, huri⟩
  cases o
  cases o'
  cases htenant
  cases htype
  cases hid
  rfl

theorem Blob.in_folder (hhex : HexSettings settings) (h : Shaped settings s) {o : Object}
    {storage_uri : String} (hblob : Blob settings s o storage_uri) :
    ∀ p ∈ object_places settings.storage storage_uri, InFolder o.object_type o.object_id p :=
  (BlobOf.uri hhex h hblob).in_folder

/-- The id of an object with a blob was drawn. -/
theorem Blob.drawn (h : Shaped settings s) {o : Object} {storage_uri : String}
    (hblob : Blob settings s o storage_uri) :
    DrawnId settings (id_start o.object_type) s.draws o.object_id := by
  rcases hblob with ⟨htype, document, hget, -⟩ | ⟨htype, hget, -⟩
  · rw [htype]
    exact (h.documents _ _ hget).1
  · rw [htype]
    exact h.evaluations _ _ hget

/-- New files come in the folders of ids that were drawn. -/
theorem drawn_of_keeps {S : Set Place}
    (h : ∀ p content object_type id, s.files.get? p = some (.file content) →
      InFolder object_type id p → DrawnId settings (id_start object_type) s.draws id)
    (hdraws : s.draws ≤ t.draws) (hfiles : KeepsFiles S s.files t.files) {object_type id : String}
    (hfolder : ∀ p ∈ S, InFolder object_type id p)
    (hid : DrawnId settings (id_start object_type) t.draws id) :
    ∀ p content object_type id, t.files.get? p = some (.file content) →
      InFolder object_type id p → DrawnId settings (id_start object_type) t.draws id := by
  intro p content object_type' id' hget hin
  by_cases hp : p ∈ S
  · obtain ⟨rfl, rfl⟩ := (hfolder p hp).unique hin
    exact hid
  · exact (h p content object_type' id' ((hfiles.same p hp content).1 hget) hin).mono hdraws

/-- Documents and evaluations are as they were. -/
theorem blob_same (hdocuments : t.documents = s.documents) (hevaluations : t.evaluations = s.evaluations)
    (o : Object) (storage_uri : String) :
    Blob settings t o storage_uri ↔ Blob settings s o storage_uri := by
  unfold Blob BlobOf
  rw [hdocuments, hevaluations]

theorem current_same (hdocuments : t.documents = s.documents)
    (hreports : t.evaluation_reports = s.evaluation_reports) (o : Object) (storage_uri : String) :
    Current t o storage_uri ↔ Current s o storage_uri := by
  unfold Current
  rw [hdocuments, hreports]

theorem Named.same {o : Object} {storage_uri : String} (h : Named settings s o storage_uri)
    (hdocuments : t.documents = s.documents) (hevaluations : t.evaluations = s.evaluations)
    (hdraws : s.draws ≤ t.draws) : Named settings t o storage_uri := by
  rcases h with hblob | ⟨htype, hnone, hdrawn⟩
  · exact .inl ((blob_same hdocuments hevaluations o storage_uri).2 hblob)
  · exact .inr ⟨htype, by rw [hdocuments]; exact hnone, hdrawn.mono hdraws⟩

/-- The records name blobs of their objects. -/
def AllNamed (settings : Settings β) (s : System β) : Prop :=
  ∀ id hold storage_uri, s.legal_hold_objects.get? id = some hold →
    hold.storage_uri = some storage_uri → Named settings s (held_object hold) storage_uri

/-- What a step leaves of the other blobs: none loses its last hold while its
flag is set, and none is newly current or newly held. -/
def Untouched (s t : System β) (settings : Settings β) (o : Object) (storage_uri : String) : Prop :=
  (Flagged settings.storage storage_uri s.files → Active s o → Active t o) ∧
    (Current t o storage_uri → Active t o → Current s o storage_uri ∧ Active s o)

/-- No file stands in a folder when none is touched. -/
theorem in_no_folder (object_type id : String) : ∀ p ∈ (∅ : Set Place), InFolder object_type id p :=
  fun p hp => absurd hp (Set.notMem_empty p)

/-- A step that touches only files in the folder of one object. -/
theorem Agreed.step {S : Set Place} {object_type id : String} (h : Agreed settings s)
    (hshaped : Shaped settings t) (hdraws : s.draws ≤ t.draws) (hfiles : KeepsFiles S s.files t.files)
    (hfolder : ∀ p ∈ S, InFolder object_type id p)
    (hid : DrawnId settings (id_start object_type) t.draws id) (hnamed : AllNamed settings t)
    (hone : OneIn t.legal_hold_objects)
    (hblobs : ∀ o uri, Blob settings t o uri → Right settings t o uri ∨ Blob settings s o uri ∧
      (∀ p ∈ object_places settings.storage uri, p ∉ S) ∧ Untouched s t settings o uri) :
    Agreed settings t where
  shaped := hshaped
  drawn := drawn_of_keeps h.drawn hdraws hfiles hfolder hid
  named := hnamed
  one := hone
  blobs o uri hblob := by
    rcases hblobs o uri hblob with hright | ⟨hbefore, hout, hflagged, hcurrent⟩
    · exact hright
    · exact (h.blobs o uri hbefore).elsewhere hfiles hout hflagged hcurrent

/-- The address is the one of a blob, and no document or evaluation is new. -/
theorem Agreed.at_blob (hhex : HexSettings settings) {o₀ : Object} {uri₀ : String}
    (h : Agreed settings s) (hblob₀ : Blob settings s o₀ uri₀) (hshaped : Shaped settings t)
    (hdocuments : t.documents = s.documents) (hevaluations : t.evaluations = s.evaluations)
    (hdraws : s.draws ≤ t.draws)
    (hfiles : KeepsFiles {p | p ∈ object_places settings.storage uri₀} s.files t.files)
    (hnamed : AllNamed settings t) (hone : OneIn t.legal_hold_objects)
    (hothers : ∀ o uri, Blob settings s o uri → ¬(o = o₀ ∧ uri = uri₀) → Untouched s t settings o uri)
    (hright : Right settings t o₀ uri₀) : Agreed settings t := by
  have hsame : ∀ o uri, Blob settings t o uri ↔ Blob settings s o uri :=
    blob_same hdocuments hevaluations
  refine h.step hshaped hdraws hfiles (hblob₀.in_folder hhex h.shaped)
    ((hblob₀.drawn h.shaped).mono hdraws) hnamed hone fun o uri hblob => ?_
  by_cases htarget : o = o₀ ∧ uri = uri₀
  · obtain ⟨rfl, rfl⟩ := htarget
    exact .inl hright
  · have hbefore := (hsame o uri).1 hblob
    exact .inr ⟨hbefore, apart hhex h.shaped hbefore hblob₀ htarget, hothers o uri hbefore htarget⟩

theorem AllNamed.same (h : AllNamed settings s) (hholds : t.legal_hold_objects = s.legal_hold_objects)
    (hdocuments : t.documents = s.documents) (hevaluations : t.evaluations = s.evaluations)
    (hdraws : s.draws ≤ t.draws) : AllNamed settings t := by
  intro id hold storage_uri hget huri
  rw [hholds] at hget
  exact (h id hold storage_uri hget huri).same hdocuments hevaluations hdraws

theorem untouched_same (hholds : t.legal_hold_objects = s.legal_hold_objects)
    (hdocuments : t.documents = s.documents) (hreports : t.evaluation_reports = s.evaluation_reports)
    (o : Object) (storage_uri : String) : Untouched s t settings o storage_uri := by
  have hactive : Active t o ↔ Active s o := by
    unfold Active
    rw [hholds]
  exact ⟨fun _ => hactive.2, fun hcurrent hheld =>
    ⟨(current_same hdocuments hreports o storage_uri).1 hcurrent, hactive.1 hheld⟩⟩

/-- Files, documents, evaluations and reports are as they were. -/
theorem Agreed.records (h : Agreed settings s) (hshaped : Shaped settings t)
    (hdocuments : t.documents = s.documents) (hevaluations : t.evaluations = s.evaluations)
    (hdraws : s.draws ≤ t.draws) (hfiles : t.files = s.files) (hnamed : AllNamed settings t)
    (hone : OneIn t.legal_hold_objects)
    (hothers : ∀ o uri, Blob settings s o uri → Untouched s t settings o uri) : Agreed settings t where
  shaped := hshaped
  drawn p content object_type id hget hin := by
    rw [hfiles] at hget
    exact (h.drawn p content object_type id hget hin).mono hdraws
  named := hnamed
  one := hone
  blobs o uri hblob := by
    have hbefore := (blob_same hdocuments hevaluations o uri).1 hblob
    obtain ⟨hflagged, hcurrent⟩ := hothers o uri hbefore
    refine (h.blobs o uri hbefore).elsewhere (S := ∅) ?_ (fun _ _ hin => hin) hflagged hcurrent
    rw [hfiles]
    exact .refl _

/-- Only the log and the draws have changed. -/
theorem Agreed.same (h : Agreed settings s) (hsame : Same s t) (hfiles : t.files = s.files) :
    Agreed settings t :=
  h.records (h.shaped.same hsame) hsame.documents hsame.evaluations hsame.draws hfiles
    (AllNamed.same h.named hsame.legal_hold_objects hsame.documents hsame.evaluations hsame.draws)
    (by rw [hsame.legal_hold_objects]; exact h.one)
    fun o uri _ =>
      untouched_same hsame.legal_hold_objects hsame.documents hsame.evaluation_reports o uri

/-! ## Steps -/

theorem cleanup_agrees (hhex : HexSettings settings) (h : Agreed settings s) {args : CleanupArgs}
    {raised : Bool} (hclean : Cleaned settings args s t raised) : Agreed settings t := by
  have hsame := hclean.same
  rcases hclean.files with hquiet | ⟨uri, now, hfree, hresolve, -, hdeleted⟩
  · exact h.same hsame hquiet
  have hinactive := (find_iff s args.tenant_id args.object_type args.object_id).1 hfree
  have hactive : ∀ o, Active t o ↔ Active s o := by
    intro o
    unfold Active
    rw [hsame.legal_hold_objects]
  have hblob : Blob settings s ⟨args.tenant_id, args.object_type, args.object_id⟩ uri :=
    blob_of_resolved h.shaped hresolve
  have hright := h.blobs _ _ hblob
  refine h.at_blob hhex hblob (h.shaped.same hsame) hsame.documents hsame.evaluations hsame.draws ?_
    (AllNamed.same h.named hsame.legal_hold_objects hsame.documents hsame.evaluations hsame.draws) ?_
    (fun o uri _ _ =>
      untouched_same hsame.legal_hold_objects hsame.documents hsame.evaluation_reports o uri)
    ⟨?_, fun hflagged => ?_, fun _ _ hheld => absurd ((hactive _).1 hheld) hinactive⟩
  · rw [hdeleted]
    exact delete_object_keeps_files _ _ _ s.files
  · rw [hsame.legal_hold_objects]
    exact h.one
  · rw [hdeleted]
    exact hright.whole.deleted
  · rw [hdeleted] at hflagged
    rcases deleted now hright.whole with hquiet | hunset
    · rw [hquiet] at hflagged
      exact (hactive _).2 (hright.flagged hflagged)
    · exact absurd hflagged hunset

theorem uri_ne_empty (storage : LocalObjectStorage β) (key : String) : uri_for_key storage key ≠ "" := by
  intro h
  have hletters := congrArg String.toList h
  unfold uri_for_key at hletters
  rw [String.toList_append, String.toList_append, String.toList_append,
    show "object://local/".toList = 'o' :: "bject://local/".toList by decide] at hletters
  cases hletters

/-- The current blob is the one that the object resolves to. -/
theorem Current.resolves (hhex : HexSettings settings) (h : Shaped settings s) {o : Object} {uri : String}
    (hcurrent : Current s o uri) :
    resolve_storage_uri s o.tenant_id o.object_type o.object_id = .ok (some uri) := by
  have hne : uri ≠ "" := by
    obtain ⟨filename, -, rfl⟩ := BlobOf.uri hhex h (hcurrent.blob h)
    exact uri_ne_empty _ _
  have husable : usable (some uri) = some uri := by
    rw [usable, Option.filter_some, if_pos (decide_eq_true hne)]
  rcases hcurrent with ⟨htype, document, hget, htenant, huri⟩ | ⟨htype, report, hget, htenant, huri⟩
  · unfold resolve_storage_uri get_document_for_tenant
    rw [if_pos htype, hget]
    dsimp only
    rw [if_neg (not_not.2 htenant)]
    show Except.ok (usable document.storage_uri) = _
    rw [huri, husable]
  · have hother : o.object_type ≠ "document" := by
      rw [htype]
      decide
    unfold resolve_storage_uri get_evaluation_report_for_tenant
    rw [if_neg hother, if_pos htype, hget]
    dsimp only
    rw [if_neg (not_not.2 htenant)]
    show Except.ok (usable report.report_uri) = _
    rw [huri, husable]

theorem impose_agrees (hhex : HexSettings settings) (h : Agreed settings s) (hshaped : Shaped settings t)
    {args : ImposeArgs} (hends : ImposeEnds settings args s t)
    (hcareful : ¬Blank args →
      find_active_legal_hold s args.tenant_id args.object_type args.object_id = none →
      (∃ uri, resolve_storage_uri s args.tenant_id (strip args.object_type) (strip args.object_id) =
        .ok uri) →
      find_active_legal_hold s args.tenant_id (strip args.object_type) (strip args.object_id) = none) :
    Agreed settings t := by
  cases hends with
  | refused hsame hfiles => exact h.same hsame hfiles
  | imposed hold hvalid hfound hobject hid hstatus hresolve hholds hdocuments hevaluations hreports hdraws hnone hsome =>
    have hinactive := (find_iff s _ _ _).1 (hcareful hvalid hfound ⟨_, hresolve⟩)
    have hnew : s.legal_hold_objects.get? hold.hold_id = none := by
      by_contra hold'
      obtain ⟨found, hfound⟩ := Option.ne_none_iff_exists'.1 hold'
      rw [hid] at hfound
      exact not_drawn_yet (le_refl _) (h.shaped.holds _ _ hfound).1
    have hactive : ∀ o, Active t o ↔ Active s o ∨ o = held_object hold := by
      intro o
      unfold Active
      rw [hholds]
      exact active_put_new hnew hstatus o
    have hone : OneIn t.legal_hold_objects := by
      rw [hholds]
      refine one_put_new h.one ?_
      rw [hobject]
      exact hinactive
    have hresolved : ∀ {uri : String}, Current s (held_object hold) uri → hold.storage_uri = some uri := by
      intro uri hcurrent
      have hnow := hcurrent.resolves hhex h.shaped
      rw [hobject] at hnow
      exact Except.ok.inj (hresolve.symm.trans hnow)
    have hblob : ∀ {uri : String}, hold.storage_uri = some uri → Blob settings s (held_object hold) uri := by
      intro uri huri
      rw [hobject]
      rw [huri] at hresolve
      exact blob_of_resolved h.shaped hresolve
    have hnamed : AllNamed settings t := by
      intro id found uri hfound huri
      rw [hholds, Table.get?_put] at hfound
      split at hfound
      · cases hfound
        exact .inl ((blob_same hdocuments hevaluations _ uri).2 (hblob huri))
      · exact (h.named id found uri hfound huri).same hdocuments hevaluations hdraws
    -- a blob of the object that it does not resolve to is not current
    have hothers : ∀ o uri, ¬(o = held_object hold ∧ hold.storage_uri = some uri) →
        Untouched s t settings o uri := by
      intro o uri hne
      refine ⟨fun _ hheld => (hactive o).2 (.inl hheld), fun hcurrent hheld => ?_⟩
      have hbefore := (current_same hdocuments hreports o uri).1 hcurrent
      rcases (hactive o).1 hheld with hheld | rfl
      · exact ⟨hbefore, hheld⟩
      · exact absurd ⟨rfl, hresolved hbefore⟩ hne
    cases huri : hold.storage_uri with
    | none =>
      refine h.records hshaped hdocuments hevaluations hdraws (hnone huri) hnamed hone fun o uri _ => ?_
      refine hothers o uri fun htarget => ?_
      rw [huri] at htarget
      cases htarget.2
    | some uri₀ =>
      obtain ⟨now, done, hdone, hfiles⟩ := hsome uri₀ huri
      have hright := h.blobs _ _ (hblob huri)
      refine h.at_blob hhex (hblob huri) hshaped hdocuments hevaluations hdraws ?_ hnamed hone
        (fun o uri _ hne => hothers o uri fun htarget => ?_)
        ⟨?_, fun _ => (hactive _).2 (.inr rfl), fun _ hthere _ => ?_⟩
      · rw [hfiles]
        exact edit_meta_keeps_files _ s.files
      · rw [huri] at htarget
        exact hne ⟨htarget.1, (Option.some.inj htarget.2).symm⟩
      · rw [hfiles]
        exact hright.whole.edited _
      · rw [hfiles] at hthere ⊢
        exact applied hright.whole hdone ((there_edited _).1 hthere)

theorem release_agrees (hhex : HexSettings settings) (h : Agreed settings s) (hshaped : Shaped settings t)
    {args : ReleaseArgs} (hends : ReleaseEnds settings args s t)
    (hlast : ∀ hold, check_release s args = .ok hold → ∀ uri, Blob settings s (held_object hold) uri →
      Held settings.storage uri s.files → blob_of_hold s hold = .ok (some uri)) :
    Agreed settings t := by
  cases hends with
  | refused hsame hfiles => exact h.same hsame hfiles
  | released hold hold' hcheck hid hobject hstatus hholds hdocuments hevaluations hreports hdraws hblob
      hfiles =>
    obtain ⟨hget, -, hheld⟩ := check_release.spec hcheck
    have hkey := hold_key hget
    rw [← hkey] at hget
    have hnotactive : hold'.status ≠ "active" := by
      rw [hstatus]
      decide
    have hactive : ∀ o, Active t o ↔ Active s o ∧ o ≠ held_object hold := fun o =>
      (active_congr hholds o).trans (active_put_released h.one hget hheld hid hnotactive o)
    have hone : OneIn t.legal_hold_objects :=
      (one_congr hholds).2 (one_put_same h.one hget hid hobject fun hactive => absurd hactive hnotactive)
    have hnow : ∀ {uri : String}, blob_of_hold s hold = .ok (some uri) →
        Named settings s (held_object hold) uri := by
      intro uri hfound
      unfold blob_of_hold at hfound
      split at hfound
      · rename_i named husable
        cases hfound
        exact h.named _ hold _ hget (usable_some husable)
      · exact .inl (blob_of_resolved h.shaped hfound)
    have hnamed : AllNamed settings t := by
      intro id found uri hfound huri
      rw [hholds, Table.get?_put] at hfound
      split at hfound
      · cases hfound
        rw [hobject]
        refine Named.same ?_ hdocuments hevaluations hdraws
        rcases hblob uri huri with hfound | hkept
        · exact hnow hfound
        · exact h.named _ hold _ hget hkept
      · exact (h.named id found uri hfound huri).same hdocuments hevaluations hdraws
    -- the flags of other blobs of the object were not set
    have hothers : ∀ o uri, Blob settings s o uri →
        (o = held_object hold → blob_of_hold s hold ≠ .ok (some uri)) →
          Untouched s t settings o uri := by
      intro o uri hblob hother
      refine ⟨fun hflagged hheld => (hactive o).2 ⟨hheld, ?_⟩, fun hcurrent hheld =>
        ⟨(current_same hdocuments hreports o uri).1 hcurrent, ((hactive o).1 hheld).1⟩⟩
      rintro rfl
      exact hother rfl (hlast hold hcheck uri hblob ((h.blobs _ _ hblob).whole.held_iff.2 hflagged))
    rcases hfiles with ⟨hnone, hfiles⟩ | ⟨uri₀, now, hfound, hfiles⟩
    · exact h.records hshaped hdocuments hevaluations hdraws hfiles hnamed hone fun o uri hblob =>
        hothers o uri hblob fun _ => hnone uri
    · have hkeeps : KeepsFiles {p | p ∈ object_places settings.storage uri₀} s.files t.files := by
        rw [hfiles]
        exact edit_meta_keeps_files _ s.files
      have hne : ∀ {o : Object} {uri : String}, ¬(o = held_object hold ∧ uri = uri₀) →
          o = held_object hold → blob_of_hold s hold ≠ .ok (some uri) := by
        intro o uri htarget ho hsame
        rw [hfound] at hsame
        exact htarget ⟨ho, (Option.some.inj (Except.ok.inj hsame)).symm⟩
      rcases hnow hfound with hblob₀ | ⟨htype, hmissing, hdrawn⟩
      · have hright := h.blobs _ _ hblob₀
        refine h.at_blob hhex hblob₀ hshaped hdocuments hevaluations hdraws hkeeps hnamed hone
          (fun o uri hblob htarget => hothers o uri hblob (hne htarget))
          ⟨?_, fun hflagged => ?_, fun _ _ hheld => absurd rfl ((hactive _).1 hheld).2⟩
        · rw [hfiles]
          exact hright.whole.edited _
        · rw [hfiles] at hflagged
          exact absurd hflagged (released_flag hright.whole)
      · have huri := blob_of_hold.shapes hhex h.shaped (h.shaped.holds _ _ hget).2 hfound
        -- the document of the hold is not stored, so no blob is in its folder
        have hnone : ∀ {o : Object} {uri : String}, Blob settings s o uri →
            ¬(o.object_type = "document" ∧ o.object_id = hold.object_id) := by
          rintro o uri (⟨-, document, hstored, -⟩ | ⟨hother, -⟩) ⟨hdocument, hsameid⟩
          · rw [hsameid] at hstored
            cases hmissing.symm.trans hstored
          · rw [hdocument] at hother
            exact absurd hother (by decide)
        refine h.step hshaped hdraws hkeeps huri.in_folder ?_ hnamed hone fun o uri hblob => ?_
        · rw [show hold.object_type = "document" from htype]
          exact hdrawn.mono hdraws
        · have hbefore := (blob_same hdocuments hevaluations o uri).1 hblob
          have hother : ∀ p ∈ object_places settings.storage uri,
              p ∉ {p | p ∈ object_places settings.storage uri₀} := by
            intro p hp hp'
            obtain ⟨hsametype, hsameid⟩ :=
              (hbefore.in_folder hhex h.shaped p hp).unique (huri.in_folder p hp')
            exact hnone hbefore ⟨hsametype.trans htype, hsameid⟩
          refine .inr ⟨hbefore, hother, hothers o uri hbefore ?_⟩
          rintro rfl
          exact absurd ⟨htype, rfl⟩ (hnone hbefore)

/-! ## Puts -/

/-- The object that a put is for. -/
def put_for (args : PutArgs β) : Object := ⟨args.tenant_id, args.object_type, args.object_id⟩

section put

variable {args : PutArgs β} {r : Except PyErr String} (h : HeldPut settings args s t r)

include h

theorem put_active (o : Object) : Active t o ↔ Active s o := by
  unfold Active
  cases h with
  | raised e hresult hfiles hsame => rw [hsame.legal_hold_objects]
  | free now hresult hfiles hsame hfree => rw [hsame.legal_hold_objects]
  | held hold now now' files hresult hput hfound hfiles hholds honly =>
    rw [hholds]
    refine active_put_same (find_active_legal_hold.spec hfound).1 ?_ ?_ ?_ o <;> rfl

theorem put_one (hone : OneIn s.legal_hold_objects) : OneIn t.legal_hold_objects := by
  cases h with
  | raised e hresult hfiles hsame =>
    rw [hsame.legal_hold_objects]
    exact hone
  | free now hresult hfiles hsame hfree =>
    rw [hsame.legal_hold_objects]
    exact hone
  | held hold now now' files hresult hput hfound hfiles hholds honly =>
    rw [hholds]
    exact one_put_same hone (find_active_legal_hold.spec hfound).1 (by rfl) (by rfl) fun hactive => hactive

/-- The hold of the object names the new blob, and other records stay. -/
theorem put_names {id uri : String} {hold : Hold} (hget : t.legal_hold_objects.get? id = some hold)
    (huri : hold.storage_uri = some uri) : s.legal_hold_objects.get? id = some hold ∨
      held_object hold = put_for args ∧ uri = address settings.storage args := by
  cases h with
  | raised e hresult hfiles hsame => exact .inl (hsame.legal_hold_objects ▸ hget)
  | free now hresult hfiles hsame hfree => exact .inl (hsame.legal_hold_objects ▸ hget)
  | held found now now' files hresult hput hfound hfiles hholds honly =>
    obtain ⟨-, htenant, htype, hid, -⟩ := find_active_legal_hold.spec hfound
    rw [hholds, Table.get?_put] at hget
    split at hget
    · cases hget
      refine .inr ⟨?_, (Option.some.inj huri).symm⟩
      unfold held_object put_for
      rw [htenant, htype, hid]
    · exact .inl hget

theorem put_named (hnamed : AllNamed settings s)
    (htarget : Named settings t (put_for args) (address settings.storage args)) : AllNamed settings t := by
  have honly := h.only
  intro id hold uri hget huri
  rcases put_names h hget huri with hbefore | ⟨hobject, rfl⟩
  · exact (hnamed id hold uri hbefore huri).same honly.documents honly.evaluations honly.draws
  · rw [hobject]
    exact htarget

variable (hpath : path_for_uri settings.storage (address settings.storage args) =
  .ok (put_path settings.storage args))

include hpath

theorem put_whole (hwhole : Whole settings.storage (address settings.storage args) s.files) :
    Whole settings.storage (address settings.storage args) t.files := by
  cases h with
  | raised e hresult hfiles hsame =>
    rw [hfiles]
    exact (put_object_ends s.files).whole hpath hwhole
  | free now hresult hfiles hsame hfree =>
    rw [hfiles]
    exact (put_object_ends s.files).whole hpath hwhole
  | held hold now now' files hresult hput hfound hfiles hholds honly =>
    rw [hfiles, hput]
    exact ((put_object_ends s.files).whole hpath hwhole).edited _

/-- A flag that the put leaves was there, or the object is held. -/
theorem put_flagged
    (hflagged : Flagged settings.storage (address settings.storage args) t.files) :
    Flagged settings.storage (address settings.storage args) s.files ∨ Active s (put_for args) := by
  cases h with
  | raised e hresult hfiles hsame =>
    rw [hfiles] at hflagged
    exact .inl ((put_object_ends s.files).flagged hpath hflagged)
  | free now hresult hfiles hsame hfree =>
    rw [hfiles] at hflagged
    exact .inl ((put_object_ends s.files).flagged hpath hflagged)
  | held hold now now' files hresult hput hfound hfiles hholds honly =>
    obtain ⟨hget, htenant, htype, hid, hactive⟩ := find_active_legal_hold.spec hfound
    refine .inr ⟨hold.hold_id, hold, hget, ?_, hactive⟩
    unfold held_object put_for
    rw [htenant, htype, hid]

/-- A put that returns leaves the blob of an object under hold with the flag. -/
theorem put_returned {uri : String} (hr : r = .ok uri)
    (hwhole : Whole settings.storage (address settings.storage args) s.files)
    (hheld : Active s (put_for args))
    (hthere : There settings.storage (address settings.storage args) t.files) :
    Flagged settings.storage (address settings.storage args) t.files := by
  cases h with
  | raised e hresult hfiles hsame => cases hr
  | free now hresult hfiles hsame hfree => exact absurd hheld ((find_iff s _ _ _).1 hfree)
  | held hold now now' files hresult hput hfound hfiles hholds honly =>
    rcases happly : (apply_legal_hold settings.storage now' (address settings.storage args)).result files
      with e | done
    · rw [happly] at hr
      cases hr
    · have hnow : Whole settings.storage (address settings.storage args) files := by
        rw [hput]
        exact (put_object_ends s.files).whole hpath hwhole
      rw [hfiles] at hthere ⊢
      exact applied hnow happly ((there_edited _).1 hthere)

/-- So does one that raises, when the blob was there or its sidecar fits. -/
theorem put_refused {e : PyErr} (hr : r = .error e)
    (hbefore : There settings.storage (address settings.storage args) s.files →
      Flagged settings.storage (address settings.storage args) s.files)
    (hsafe : There settings.storage (address settings.storage args) s.files ∨
      SidecarFits settings.storage (settings.env.clock s.draws) args s.files)
    (hthere : There settings.storage (address settings.storage args) t.files) :
    Flagged settings.storage (address settings.storage args) t.files := by
  cases h with
  | raised e' hresult hfiles hsame =>
    have hends : PutEnds settings.storage (settings.env.clock s.draws) args s.files
        ((put_object settings.storage (settings.env.clock s.draws) args).result s.files)
        ((put_object settings.storage (settings.env.clock s.draws) args).final s.files) :=
      put_object_ends s.files
    rw [hfiles] at hthere ⊢
    have hfile : There settings.storage (address settings.storage args) s.files := by
      rcases hsafe with hfile | hfits
      · exact hfile
      · exact hends.raises_there hresult hfits hthere
    exact hends.raises_flagged hpath hresult (hbefore hfile)
  | free now hresult hfiles hsame hfree => cases hr
  | held hold now now' files hresult hput hfound hfiles hholds honly =>
    rcases happly : (apply_legal_hold settings.storage now' (address settings.storage args)).result files
      with e' | done
    swap
    · rw [happly] at hr
      cases hr
    have hquiet : t.files = files := by
      rw [hfiles]
      exact edit_meta_raises happly
    rw [hquiet] at hthere ⊢
    -- a sidecar that the put has written can be read, so the flag could be set
    rcases (put_object_ends s.files).returns hpath hresult with hsame | ⟨fields, hsidecar⟩
    · rw [hput, hsame] at hthere ⊢
      exact hbefore hthere
    · rw [← hput] at hsidecar
      have hdone := (edit_meta_done (fun fields => (fields.set "legal_hold" (.bool true)).set
        "legal_hold_at" (.str (settings.storage.library.isoformat now'))) hsidecar).1
      exact absurd (happly.symm.trans hdone) (by simp)

end put

/-- A put at the address of a blob of its object. -/
theorem put_agrees (hhex : HexSettings settings) {args : PutArgs β} {r : Except PyErr String} {u : System β}
    (hpath : path_for_uri settings.storage (address settings.storage args) =
      .ok (put_path settings.storage args))
    (h : Agreed settings s) (hput : HeldPut settings args s u r)
    (hblob : Blob settings s (put_for args) (address settings.storage args))
    (hshaped : Shaped settings t) (hfiles : t.files = u.files)
    (hholds : t.legal_hold_objects = u.legal_hold_objects) (hdocuments : t.documents = s.documents)
    (hevaluations : t.evaluations = s.evaluations) (hdraws : t.draws = u.draws)
    (hcurrent : ∀ o uri, Current t o uri →
      ¬(o = put_for args ∧ uri = address settings.storage args) → Current s o uri)
    (hflag : Current t (put_for args) (address settings.storage args) →
      There settings.storage (address settings.storage args) u.files → Active s (put_for args) →
        Flagged settings.storage (address settings.storage args) u.files) : Agreed settings t := by
  have honly := hput.only
  have hactive : ∀ o, Active t o ↔ Active s o := by
    intro o
    rw [← put_active hput o, Active, hholds]
    exact Iff.rfl
  have hmoved : AllNamed settings u := put_named hput h.named
    (.inl ((blob_same honly.documents honly.evaluations _ _).2 hblob))
  have hright := h.blobs _ _ hblob
  refine h.at_blob hhex hblob hshaped hdocuments hevaluations ?_ ?_
    (AllNamed.same hmoved hholds (hdocuments.trans honly.documents.symm)
      (hevaluations.trans honly.evaluations.symm) hdraws.ge) ?_ (fun o uri _ hother => ?_)
    ⟨?_, fun hflagged => ?_, fun hnow hthere hheld => ?_⟩
  · rw [hdraws]
    exact honly.draws
  · rw [hfiles]
    exact hput.keeps_files hpath
  · rw [hholds]
    exact put_one hput h.one
  · exact ⟨fun _ => (hactive o).2, fun hnow hheld => ⟨hcurrent o uri hnow hother, (hactive o).1 hheld⟩⟩
  · rw [hfiles]
    exact put_whole hput hpath hright.whole
  · rw [hfiles] at hflagged
    rcases put_flagged hput hpath hflagged with hbefore | hheld
    · exact (hactive _).2 (hright.flagged hbefore)
    · exact (hactive _).2 hheld
  · rw [hfiles] at hthere ⊢
    exact hflag hnow hthere ((hactive _).1 hheld)

/-- A report under hold that is archived at its address again has its blob
there, or its sidecar can be written. -/
def ArchiveSafe (settings : Settings β) (s : System β) (evaluation_id : String) (fields : PyDict) : Prop :=
  ∀ tenant_id, s.evaluations.get? evaluation_id = some tenant_id →
    let args := report_args settings (persisted s evaluation_id tenant_id fields)
    Active s (put_for args) → Current s (put_for args) (address settings.storage args) →
      There settings.storage (address settings.storage args) s.files ∨
        SidecarFits settings.storage (settings.env.clock s.draws) args s.files

theorem archive_agrees (hhex : HexSettings settings) (hleads : LeadsBack settings.storage)
    (h : Agreed settings s) (hshaped : Shaped settings t) {evaluation_id : String} {fields : PyDict}
    {r : Except PyErr Unit} (hends : ArchiveEnds settings evaluation_id fields s t r)
    (hsafe : ArchiveSafe settings s evaluation_id fields) : Agreed settings t := by
  have hblob : ∀ {tenant_id}, s.evaluations.get? evaluation_id = some tenant_id →
      Blob settings s (put_for (report_args settings (persisted s evaluation_id tenant_id fields)))
        (address settings.storage (report_args settings (persisted s evaluation_id tenant_id fields))) :=
    fun htenant => .inr ⟨rfl, htenant, _, report_name hhex _, rfl⟩
  cases hends with
  | unknown hnone hsame =>
    rw [hsame]
    exact h
  | raised tenant_id e htenant hput =>
    have honly := hput.only
    have hbefore := h.blobs _ _ (hblob htenant)
    refine put_agrees hhex (hleads.path _) h hput (hblob htenant) hshaped rfl rfl honly.documents
      honly.evaluations rfl (fun o uri hnow _ =>
        (current_same honly.documents honly.evaluation_reports o uri).1 hnow) fun hnow hthere hheld => ?_
    have hcurrent := (current_same honly.documents honly.evaluation_reports _ _).1 hnow
    exact put_refused hput (hleads.path _) rfl (fun hfile => hbefore.current hcurrent hfile hheld)
      (hsafe tenant_id htenant hheld hcurrent) hthere
  | archived tenant_id uri u htenant hput ht =>
    have honly := hput.only
    obtain ⟨rfl, -⟩ := hput.returns rfl
    refine put_agrees hhex (hleads.path _) h hput (hblob htenant) hshaped (by rw [ht]) (by rw [ht])
      (by rw [ht]; exact honly.documents) (by rw [ht]; exact honly.evaluations) (by rw [ht])
      (fun o uri hnow hother => ?_) fun _ hthere hheld =>
        put_returned hput (hleads.path _) rfl (h.blobs _ _ (hblob htenant)).whole hheld hthere
    rw [ht] at hnow
    rcases hnow with ⟨htype, document, hget, hrest⟩ | ⟨htype, report, hget, htenant', huri⟩
    · rw [show u.documents = s.documents from honly.documents] at hget
      exact .inl ⟨htype, document, hget, hrest⟩
    · dsimp only at hget
      rw [Table.get?_put, honly.evaluation_reports] at hget
      split at hget
      · rename_i hid
        cases hget
        refine absurd ⟨?_, (Option.some.inj huri).symm⟩ hother
        cases o
        cases htype
        cases hid
        cases htenant'
        rfl
      · exact .inr ⟨htype, report, hget, htenant', huri⟩

/-! Uploads and evaluations. -/

/-- No file is in the folder of an id that was not drawn. -/
theorem Agreed.no_files (h : Agreed settings s) (object_type : String) {id : String}
    (hnew : ¬DrawnId settings (id_start object_type) s.draws id) :
    ∀ p, InFolder object_type id p → ∀ content, s.files.get? p ≠ some (.file content) :=
  fun p hin content hget => hnew (h.drawn p content object_type id hget hin)

theorem Right.of_no_files {o : Object} {uri : String}
    (h : ∀ p ∈ object_places settings.storage uri, ∀ content, s.files.get? p ≠ some (.file content)) :
    Right settings s o uri where
  whole := .of_empty h
  flagged hflagged := by
    obtain ⟨p, hp, content, hget⟩ := hflagged.file
    exact absurd hget (h p hp content)
  current _ hthere := by
    obtain ⟨p, hp, content, hget⟩ := hthere.file
    exact absurd hget (h p hp content)

/-- A document id that was just drawn. -/
structure Fresh (settings : Settings β) (s : System β) (id : String) : Prop where
  missing : s.documents.get? id = none
  drawn : DrawnId settings "doc_" s.draws id
  empty : ∀ p, InFolder "document" id p → ∀ content, s.files.get? p ≠ some (.file content)
  unnamed : ∀ hold_id hold uri, s.legal_hold_objects.get? hold_id = some hold →
    hold.storage_uri = some uri → hold.object_type = "document" → hold.object_id ≠ id

theorem Agreed.fresh (h : Agreed settings s) :
    Fresh settings { s with draws := s.draws + 1 } ("doc_" ++ settings.env.uuid4.hex12 s.draws) := by
  have hnew : ¬DrawnId settings "doc_" s.draws ("doc_" ++ settings.env.uuid4.hex12 s.draws) :=
    not_drawn_yet (le_refl _)
  have hmissing : s.documents.get? ("doc_" ++ settings.env.uuid4.hex12 s.draws) = none := by
    by_contra hfound
    obtain ⟨document, hdocument⟩ := Option.ne_none_iff_exists'.1 hfound
    exact hnew (h.shaped.documents _ _ hdocument).1
  refine ⟨hmissing, ⟨s.draws, Nat.lt_succ_self _, rfl⟩, h.no_files "document" hnew, ?_⟩
  intro hold_id hold uri hget huri htype hid
  rcases h.named hold_id hold uri hget huri with (⟨-, document, hdocument, -⟩ | ⟨hother, -⟩) | ⟨-, -, hdrawn⟩
  · rw [show (held_object hold).object_id = hold.object_id from rfl, hid, hmissing] at hdocument
    cases hdocument
  · exact absurd (hother.symm.trans htype) (by decide)
  · exact hnew (hid ▸ hdrawn)

/-- A new document gives its object a blob if it names one. -/
theorem blob_put_document {document : StoredDocument} (hdocuments : t.documents = s.documents.put document)
    (hevaluations : t.evaluations = s.evaluations) {o : Object} {uri : String}
    (hblob : Blob settings t o uri) : Blob settings s o uri ∨
      o = ⟨document.tenant_id, "document", document.document_id⟩ ∧ document.storage_uri = some uri := by
  rcases hblob with ⟨htype, found, hget, htenant, huri⟩ | ⟨htype, hget, hrest⟩
  · rw [hdocuments, Table.get?_put] at hget
    split at hget
    · rename_i hid
      cases hget
      refine .inr ⟨?_, huri⟩
      cases o
      cases htype
      cases hid
      cases htenant
      rfl
    · exact .inl (.inl ⟨htype, found, hget, htenant, huri⟩)
  · exact .inl (.inr ⟨htype, hevaluations ▸ hget, hrest⟩)

theorem named_put_document {document : StoredDocument} (hfresh : Fresh settings s document.document_id)
    (hdocuments : t.documents = s.documents.put document) (hevaluations : t.evaluations = s.evaluations)
    (hdraws : s.draws ≤ t.draws) {hold_id uri : String} {hold : Hold}
    (hget : s.legal_hold_objects.get? hold_id = some hold) (huri : hold.storage_uri = some uri)
    (hnamed : Named settings s (held_object hold) uri) : Named settings t (held_object hold) uri := by
  have hother : hold.object_type = "document" →
      t.documents.get? hold.object_id = s.documents.get? hold.object_id := by
    intro htype
    rw [hdocuments, Table.get?_put, if_neg (hfresh.unnamed hold_id hold uri hget huri htype)]
  rcases hnamed with (⟨htype, found, hfound, hrest⟩ | ⟨htype, hfound, hrest⟩) | ⟨htype, hmissing, hdrawn⟩
  · exact .inl (.inl ⟨htype, found, (hother htype).trans hfound, hrest⟩)
  · exact .inl (.inr ⟨htype, hevaluations ▸ hfound, hrest⟩)
  · exact .inr ⟨htype, (hother htype).trans hmissing, hdrawn.mono hdraws⟩

theorem Fresh.no_blob {id : String} (h : Fresh settings s id) {o : Object} {uri : String}
    (hblob : Blob settings s o uri) : ¬(o.object_type = "document" ∧ o.object_id = id) := by
  rintro ⟨htype, hid⟩
  rcases hblob with ⟨-, document, hget, -⟩ | ⟨hother, -⟩
  · rw [hid, h.missing] at hget
    cases hget
  · exact absurd (htype.symm.trans hother) (by decide)

/-- The new document is the only new current blob. -/
theorem untouched_put_document {document : StoredDocument} (hfresh : Fresh settings s document.document_id)
    (hdocuments : t.documents = s.documents.put document)
    (hreports : t.evaluation_reports = s.evaluation_reports) (hactive : ∀ o, Active t o ↔ Active s o)
    {o : Object} {uri : String} (hblob : Blob settings s o uri) : Untouched s t settings o uri := by
  refine ⟨fun _ => (hactive o).2, fun hnow hheld => ⟨?_, (hactive o).1 hheld⟩⟩
  rcases hnow with ⟨htype, found, hget, hrest⟩ | ⟨htype, report, hget, hrest⟩
  · rw [hdocuments, Table.get?_put, if_neg fun hid => hfresh.no_blob hblob ⟨htype, hid⟩] at hget
    exact .inl ⟨htype, found, hget, hrest⟩
  · exact .inr ⟨htype, report, hreports ▸ hget, hrest⟩

/-- The blobs that were there are not in the folder of the new document. -/
theorem Fresh.apart (hhex : HexSettings settings) (hshaped : Shaped settings s) {id : String}
    (h : Fresh settings s id) {S : Set Place} (hfolder : ∀ p ∈ S, InFolder "document" id p) {o : Object}
    {uri : String} (hblob : Blob settings s o uri) : ∀ p ∈ object_places settings.storage uri, p ∉ S := by
  intro p hp hin
  exact h.no_blob hblob ((hblob.in_folder hhex hshaped p hp).unique (hfolder p hin))

theorem upload_agrees (hhex : HexSettings settings) (hleads : LeadsBack settings.storage)
    (h : Agreed settings s) (hshaped : Shaped settings t) {file : Upload β}
    (hends : UploadEnds settings file s t) : Agreed settings t := by
  have hfresh := h.fresh
  have h₁ : Agreed settings { s with draws := s.draws + 1 } :=
    h.same ⟨rfl, rfl, rfl, rfl, Nat.le_succ _⟩ rfl
  have hfolder : ∀ file_bytes, ∀ p ∈ object_places settings.storage
      (address settings.storage (upload_args settings file s file_bytes)),
        InFolder "document" ("doc_" ++ settings.env.uuid4.hex12 s.draws) p := fun file_bytes =>
    document_places settings.storage (document_id hhex s.draws) file.tenant_id _
  cases hends with
  | existing hsame =>
    rw [hsame]
    exact h
  | empty ht =>
    have hdocuments : t.documents = s.documents.put (uploaded settings file s none) := by rw [ht]
    have hholds : t.legal_hold_objects = s.legal_hold_objects := by rw [ht]
    have hdrawn : t.draws = s.draws + 1 := by rw [ht]
    refine h₁.step (S := ∅) hshaped hdrawn.ge (by rw [ht]; exact .refl _)
      (in_no_folder "document" ("doc_" ++ settings.env.uuid4.hex12 s.draws)) ⟨s.draws, by omega, rfl⟩
      (fun id hold uri hget huri => ?_) (by rw [hholds]; exact h.one) fun o uri hblob => ?_
    · rw [hholds] at hget
      exact named_put_document (s := { s with draws := s.draws + 1 }) hfresh hdocuments (by rw [ht])
        hdrawn.ge hget huri (h₁.named id hold uri hget huri)
    · rcases blob_put_document (s := { s with draws := s.draws + 1 }) hdocuments (by rw [ht]) hblob
        with hbefore | ⟨-, hnone⟩
      · refine .inr ⟨hbefore, fun _ _ => Set.notMem_empty _, ?_⟩
        refine untouched_put_document (s := { s with draws := s.draws + 1 }) hfresh hdocuments
          (by rw [ht]) (fun o => ?_) hbefore
        unfold Active
        rw [hholds]
      · cases hnone
  | raised file_bytes e hput =>
    have honly := hput.only
    refine h₁.step hshaped honly.draws (hput.keeps_files (hleads.path _)) (hfolder file_bytes)
      (hfresh.drawn.mono honly.draws) (put_named hput h₁.named (.inr ⟨rfl, ?_, ?_⟩))
      (put_one hput h₁.one) fun o uri hblob => ?_
    · rw [honly.documents]
      exact hfresh.missing
    · exact hfresh.drawn.mono honly.draws
    · have hbefore := (blob_same honly.documents honly.evaluations o uri).1 hblob
      refine .inr ⟨hbefore, hfresh.apart hhex h₁.shaped (hfolder file_bytes) hbefore, ?_⟩
      exact ⟨fun _ => (put_active hput o).2, fun hnow hheld =>
        ⟨(current_same honly.documents honly.evaluation_reports o uri).1 hnow, (put_active hput o).1 hheld⟩⟩
  | stored file_bytes uri₀ u hput ht =>
    have honly := hput.only
    obtain ⟨rfl, -⟩ := hput.returns rfl
    have hpath := hleads.path (upload_args settings file s file_bytes)
    have hdocuments : t.documents = s.documents.put (uploaded settings file s
        (some (address settings.storage (upload_args settings file s file_bytes)))) := by
      rw [ht, show u.documents = s.documents from honly.documents]
    have hevaluations : t.evaluations = s.evaluations := by
      rw [ht]
      exact honly.evaluations
    have hfiles : t.files = u.files := by rw [ht]
    have hactive : ∀ o, Active t o ↔ Active { s with draws := s.draws + 1 } o := by
      intro o
      rw [← put_active hput o, ht]
      exact Iff.rfl
    have hdraws : s.draws + 1 ≤ t.draws := by
      rw [ht]
      exact honly.draws
    have hright : Right settings { s with draws := s.draws + 1 }
        (put_for (upload_args settings file s file_bytes))
        (address settings.storage (upload_args settings file s file_bytes)) :=
      .of_no_files fun p hp => hfresh.empty p (hfolder file_bytes p hp)
    have hnew : Right settings t (put_for (upload_args settings file s file_bytes))
        (address settings.storage (upload_args settings file s file_bytes)) := by
      refine ⟨?_, fun hflagged => ?_, fun _ hthere hheld => ?_⟩
      · rw [hfiles]
        exact put_whole hput hpath hright.whole
      · rw [hfiles] at hflagged
        exact (hactive _).2 ((put_flagged hput hpath hflagged).elim hright.flagged id)
      · rw [hfiles] at hthere ⊢
        exact put_returned hput hpath rfl hright.whole ((hactive _).1 hheld) hthere
    have hone : OneIn t.legal_hold_objects := by
      rw [show t.legal_hold_objects = u.legal_hold_objects by rw [ht]]
      exact put_one hput h₁.one
    have hblob : Blob settings t (put_for (upload_args settings file s file_bytes))
        (address settings.storage (upload_args settings file s file_bytes)) := by
      refine .inl ⟨rfl, uploaded settings file s
        (some (address settings.storage (upload_args settings file s file_bytes))), ?_, rfl, rfl⟩
      rw [hdocuments]
      exact Table.get?_put_self _ _
    refine h₁.step (S := {p | p ∈ object_places settings.storage
        (address settings.storage (upload_args settings file s file_bytes))}) hshaped hdraws
      (by rw [hfiles]; exact hput.keeps_files hpath) (hfolder file_bytes) (hfresh.drawn.mono hdraws)
      (fun id hold uri hget huri => ?_) hone fun o uri hafter => ?_
    · rw [ht] at hget
      rcases put_names hput hget huri with hbefore | ⟨hobject, rfl⟩
      · exact named_put_document (s := { s with draws := s.draws + 1 }) hfresh hdocuments hevaluations
          hdraws hbefore huri (h₁.named id hold uri hbefore huri)
      · rw [hobject]
        exact .inl hblob
    · rcases blob_put_document (s := { s with draws := s.draws + 1 }) hdocuments hevaluations hafter
        with hbefore | ⟨rfl, huri⟩
      · refine .inr ⟨hbefore, hfresh.apart hhex h₁.shaped (hfolder file_bytes) hbefore, ?_⟩
        refine untouched_put_document (s := { s with draws := s.draws + 1 }) hfresh hdocuments ?_ hactive
          hbefore
        rw [ht]
        exact honly.evaluation_reports
      · cases huri
        exact .inl hnew

/-- An evaluation that was just made has no report yet. -/
theorem create_evaluation_agrees (hhex : HexSettings settings) (h : Agreed settings s) (tenant_id : String)
    (hshaped : Shaped settings ((create_evaluation settings tenant_id).final s)) :
    Agreed settings ((create_evaluation settings tenant_id).final s) := by
  have hends : Meets AnyStep (create_evaluation settings tenant_id) s (fun _ t => t = { s with
      evaluations := s.evaluations.set ("ev_" ++ settings.env.uuid4.hex12 s.draws) tenant_id
      draws := s.draws + 1 }) := by
    rw [create_evaluation, meets_bind, meets_uuid4_hex12, then_ok, meets_bind, meets_update, then_ok,
      meets_pure]
  have ht := hends.2
  generalize (create_evaluation settings tenant_id).final s = t at hshaped ht ⊢
  have hnew : ¬DrawnId settings "ev_" s.draws ("ev_" ++ settings.env.uuid4.hex12 s.draws) :=
    not_drawn_yet (le_refl _)
  have hdraws : t.draws = s.draws + 1 := by rw [ht]
  have hother : ∀ {id tenant}, s.evaluations.get? id = some tenant →
      t.evaluations.get? id = some tenant := by
    intro id tenant hget
    rw [ht]
    refine (Dict.get?_set_of_ne _ _ ?_).trans hget
    rintro rfl
    exact hnew (h.shaped.evaluations _ _ hget)
  refine h.step (S := ∅) hshaped (by omega) (by rw [ht]; exact .refl _)
    (in_no_folder "report" ("ev_" ++ settings.env.uuid4.hex12 s.draws)) ⟨s.draws, by omega, rfl⟩ (fun id hold uri hget huri => ?_) (by rw [ht]; exact h.one)
    fun o uri hblob => ?_
  · rw [ht] at hget
    rcases h.named id hold uri hget huri with (hdocument | ⟨htype, hfound, hrest⟩) | ⟨htype, hmissing, hdrawn⟩
    · exact .inl (.inl (by rw [ht]; exact hdocument))
    · exact .inl (.inr ⟨htype, hother hfound, hrest⟩)
    · exact .inr ⟨htype, by rw [ht]; exact hmissing, hdrawn.mono (by omega)⟩
  · have huntouched : Untouched s t settings o uri := by
      refine untouched_same ?_ ?_ ?_ o uri <;> rw [ht]
    rcases hblob with hdocument | ⟨htype, hfound, filename, hname, rfl⟩
    · rw [ht] at hdocument
      exact .inr ⟨.inl hdocument, fun _ _ => Set.notMem_empty _, huntouched⟩
    · by_cases hid : o.object_id = "ev_" ++ settings.env.uuid4.hex12 s.draws
      · refine .inl (.of_no_files fun p hp content hget => ?_)
        rw [ht] at hget
        refine h.no_files "report" hnew p ?_ content hget
        rw [← hid]
        exact report_in_folder settings.storage (hid ▸ ⟨_, hhex.uuid s.draws, rfl⟩) _ hname.plain p hp
      · rw [ht] at hfound
        exact .inr ⟨.inr ⟨htype, (Dict.get?_set_of_ne _ _ hid).symm.trans hfound, filename, hname, rfl⟩,
          fun _ _ => Set.notMem_empty _, huntouched⟩

/-! ## Careful steps -/

/-- The condition on a step, in the state before it. An impose that looks up
no hold finds none under the stripped names either. A release is of the only
blob of its object that has the flag. -/
def CarefulOp (settings : Settings β) (s : System β) : Op β → Prop
  | .impose args => ¬Blank args →
      find_active_legal_hold s args.tenant_id args.object_type args.object_id = none →
      (∃ uri, resolve_storage_uri s args.tenant_id (strip args.object_type) (strip args.object_id) = .ok uri) →
        find_active_legal_hold s args.tenant_id (strip args.object_type) (strip args.object_id) = none
  | .release args => ∀ hold, check_release s args = .ok hold → ∀ uri, Blob settings s (held_object hold) uri →
      Held settings.storage uri s.files → blob_of_hold s hold = .ok (some uri)
  | .archive_report evaluation_id fields => ArchiveSafe settings s evaluation_id fields
  | _ => True

theorem op_agrees (hhex : HexSettings settings) (hleads : LeadsBack settings.storage) (h : Agreed settings s)
    (op : Op β) (hcareful : CarefulOp settings s op)
    (hshaped : Shaped settings ((op.act settings).final s)) : Agreed settings ((op.act settings).final s) := by
  cases op with
  | upload file =>
    rw [Op.act, hold_store.quiet, final_bind_pure] at hshaped ⊢
    exact upload_agrees hhex hleads h hshaped (create_upload_job_ends file s).2
  | create_evaluation tenant_id =>
    rw [Op.act, hold_store.quiet, final_bind_pure] at hshaped ⊢
    exact create_evaluation_agrees hhex h tenant_id hshaped
  | archive_report evaluation_id fields =>
    exact archive_agrees hhex hleads h hshaped (archive_report_ends hhex h.shaped evaluation_id fields).2
      hcareful
  | impose args =>
    rw [Op.act, hold_store.quiet, final_bind_pure] at hshaped ⊢
    exact impose_agrees hhex h hshaped (impose_legal_hold_ends args s).2 hcareful
  | release args =>
    rw [Op.act, hold_store.quiet, final_bind_pure] at hshaped ⊢
    exact release_agrees hhex h hshaped (release_ends args s).2 hcareful
  | cleanup args =>
    rw [Op.act, hold_store.quiet, final_bind_pure] at hshaped ⊢
    exact cleanup_agrees hhex h (execute_storage_cleanup.spec _ args s).2

/-! ## Modes -/

theorem flagged_under (modes : Modes) {storage_uri : String} {files : FileTree β} :
    Flagged (settings.under modes).storage storage_uri files ↔
      Flagged settings.storage storage_uri files := by
  unfold Flagged path_for_uri loads_or_default
  exact Iff.rfl

theorem there_under (modes : Modes) {storage_uri : String} {files : FileTree β} :
    There (settings.under modes).storage storage_uri files ↔ There settings.storage storage_uri files := by
  unfold There path_for_uri
  exact Iff.rfl

theorem whole_under (modes : Modes) {storage_uri : String} {files : FileTree β} :
    Whole (settings.under modes).storage storage_uri files ↔ Whole settings.storage storage_uri files := by
  constructor
  · intro h
    exact ⟨h.file, h.sidecar, fun path hpath hflagged => h.flag path hpath ((flagged_under modes).2 hflagged)⟩
  · intro h
    exact ⟨h.file, h.sidecar, fun path hpath hflagged => h.flag path hpath ((flagged_under modes).1 hflagged)⟩

theorem right_under (modes : Modes) {o : Object} {storage_uri : String} :
    Right (settings.under modes) s o storage_uri ↔ Right settings s o storage_uri := by
  constructor
  · intro h
    exact ⟨(whole_under modes).1 h.whole, fun hflagged => h.flagged ((flagged_under modes).2 hflagged),
      fun hcurrent hthere hheld => (flagged_under modes).1
        (h.current hcurrent ((there_under modes).2 hthere) hheld)⟩
  · intro h
    exact ⟨(whole_under modes).2 h.whole, fun hflagged => h.flagged ((flagged_under modes).1 hflagged),
      fun hcurrent hthere hheld => (flagged_under modes).2
        (h.current hcurrent ((there_under modes).1 hthere) hheld)⟩

theorem named_under (modes : Modes) {o : Object} {storage_uri : String} :
    Named (settings.under modes) s o storage_uri ↔ Named settings s o storage_uri := by
  unfold Named Blob
  rw [blob_under]
  exact Iff.rfl

theorem agreed_under (modes : Modes) : Agreed (settings.under modes) s ↔ Agreed settings s := by
  constructor
  · intro h
    exact ⟨(shaped_under modes).1 h.shaped, h.drawn,
      fun id hold uri hget huri => (named_under modes).1 (h.named id hold uri hget huri), h.one,
      fun o uri hblob => (right_under modes).1 (h.blobs o uri ((blob_under modes).2 hblob))⟩
  · intro h
    exact ⟨(shaped_under modes).2 h.shaped, h.drawn,
      fun id hold uri hget huri => (named_under modes).2 (h.named id hold uri hget huri), h.one,
      fun o uri hblob => (right_under modes).2 (h.blobs o uri ((blob_under modes).1 hblob))⟩

/-! ## The law -/

/-- The step meets its condition, under the modes of its request. -/
def Careful (settings : Settings β) (s : System β) (request : Request β) : Prop :=
  CarefulOp (settings.under request.modes) s request.op

theorem agreed_along (hhex : HexSettings settings) (hleads : LeadsBack settings.storage)
    {requests : List (Request β)}
    (hcareful : Throughout (hold_store.machine settings) (Careful settings) requests) :
    ∀ before, before <+: requests → Agreed settings ((hold_store.machine settings).after before) := by
  refine along (agreed_empty settings) fun before request hpart h => ?_
  rw [Machine.after_concat]
  have hshaped := shaped_step hhex request h.shaped
  have hstep := op_agrees (hex_under request.modes hhex) (LeadsBack.under request.modes hleads)
    ((agreed_under request.modes).2 h) request.op (hcareful before request hpart)
    ((shaped_under request.modes).2 hshaped)
  exact (agreed_under request.modes).1 hstep

theorem plain_leads : LeadsBack plain_settings.storage := by
  intro name rest _ hbucket
  have hslash : '/' ∈ "bea".toList :=
    (show "bea".toList = name ++ '/' :: rest from hbucket) ▸ List.mem_append_right _ List.mem_cons_self
  exact absurd hslash (by decide)

def hold_on (object_type object_id : String) : ImposeArgs :=
  ⟨"tenant", object_type, object_id, "audit", "ann", "trace"⟩

def release_of (hold_id : String) : ReleaseArgs := ⟨hold_id, "tenant", "done", "eva", "tom", "trace"⟩

/-- A document that is held and released. -/
def held_document : List (Request FileText) :=
  [⟨loose, .upload bid_upload⟩, ⟨loose, .impose (hold_on "document" "doc_")⟩,
    ⟨loose, .release (release_of "hold_aa")⟩]

theorem bid_release_is_careful : Careful plain_settings
    ((hold_store.machine plain_settings).after (held_document.take 2)) ⟨loose, .release (release_of "hold_aa")⟩ := by
  have hcheck : (check_release ((hold_store.machine plain_settings).after (held_document.take 2))
      (release_of "hold_aa")).toOption.map (fun hold => (hold.object_type, hold.object_id,
        (blob_of_hold ((hold_store.machine plain_settings).after (held_document.take 2)) hold).toOption)) =
          some ("document", "doc_",
            some (some "object://local/bea/tenants/tenant/documents/doc_/raw/bid.pdf")) := by
    decide +kernel
  have hdocument : (((hold_store.machine plain_settings).after (held_document.take 2)).documents.get?
      "doc_").map (fun document => document.storage_uri) =
        some (some "object://local/bea/tenants/tenant/documents/doc_/raw/bid.pdf") := by decide +kernel
  intro hold hhold uri hblob _
  rw [hhold] at hcheck
  obtain ⟨htype, hid, hfound⟩ := by simpa [Except.toOption] using hcheck
  rcases hblob with ⟨-, document, hget, -, huri⟩ | ⟨hother, -⟩
  · rw [show (held_object hold).object_id = "doc_" from hid] at hget
    rw [hget, Option.map_some, huri] at hdocument
    rw [Option.some.inj (Option.some.inj hdocument)]
    exact ok_of_toOption hfound
  · exact absurd (htype.symm.trans hother) (by decide)

/-- The same object twice, the second time with a blank in front. -/
def imposed_twice : List (Request FileText) :=
  [⟨loose, .impose (hold_on "document" "doc_1")⟩, ⟨loose, .impose (hold_on " document" "doc_1")⟩]

/-- A report that is archived under hold in a second version, and released. -/
def older_version : List (Request FileText) :=
  [⟨write_once, .create_evaluation "tenant"⟩, ⟨write_once, .archive_report "ev_" []⟩,
    ⟨write_once, .impose (hold_on "report" "ev_")⟩,
    ⟨write_once, .archive_report "ev_" [("score", .none)]⟩,
    ⟨write_once, .release (release_of "hold_aa")⟩]

def hold_words (hold : Hold) : String × String × String × String :=
  (hold.tenant_id, hold.object_type, hold.object_id, hold.status)

/-- What the run on the report leaves: the evaluation, the flag of the first
version and the records. -/
theorem older_version_end :
    (let left := (hold_store.machine (json_settings "bea")).after older_version
    (left.evaluations.get? "ev_",
      ((is_legal_hold_active (json_settings "bea").storage
        "object://local/bea/tenants/tenant/reports/ev_/report-0.json").result left.files).toOption,
      left.legal_hold_objects.values.map hold_words)) =
        (some "tenant", some true, [("tenant", "report", "ev_", "released")]) := by
  decide +kernel

end bid_evaluation.hold_agreement
