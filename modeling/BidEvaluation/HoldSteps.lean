-- What the operations on holds do to the system: the draws and the log on
-- the way, the files of the object storage, and the end of a cleanup.
import BidEvaluation.Endings
import BidEvaluation.HoldStore
import BidEvaluation.ProtectionLaws

open dict_lib file_tree stepwise bid_evaluation.values bid_evaluation.object_storage
  bid_evaluation.object_frames bid_evaluation.worm_laws bid_evaluation.protection_laws
  bid_evaluation.hold_store
open bid_evaluation.endings (AnyStep)

namespace bid_evaluation.hold_steps

variable {β α α' : Type} {settings : Settings β} {s t : System β}

/-! ## Small steps -/

theorem steps_any (s : System β) (l : List (System β)) : Steps AnyStep s l := by
  induction l generalizing s with
  | nil => trivial
  | cons t rest ih => exact ⟨trivial, ih t⟩

@[simp] theorem meets_on_files {m : Act β α} {Q : Except PyErr α → System β → Prop} :
    Meets AnyStep (on_files m) s Q ↔ Q (m.result s.files) { s with files := m.final s.files } := by
  have hfinal : (on_files m).final s = { s with files := m.final s.files } :=
    lastState_map (fun t => ({ s with files := t } : System β)) s.files (m s.files).1
  unfold Meets
  rw [hfinal]
  exact ⟨fun h => h.2, fun h => ⟨steps_any s _, h⟩⟩

@[simp] theorem meets_update {f : System β → System β} {Q : Except PyErr Unit → System β → Prop} :
    Meets AnyStep (hold_store.update f) s Q ↔ Q (.ok ()) (f s) := by
  unfold hold_store.update
  rw [meets_write]
  simp

@[simp] theorem meets_draw {Q : Except PyErr Nat → System β → Prop} :
    Meets AnyStep (hold_store.draw : HoldAct β Nat) s Q ↔
      Q (.ok s.draws) { s with draws := s.draws + 1 } := by
  unfold hold_store.draw
  simp

@[simp] theorem meets_uuid4_hex12 {Q : Except PyErr String → System β → Prop} :
    Meets AnyStep (hold_store.uuid4_hex12 settings) s Q ↔
      Q (.ok (settings.env.uuid4.hex12 s.draws)) { s with draws := s.draws + 1 } := by
  unfold hold_store.uuid4_hex12
  simp

@[simp] theorem meets_moment {Q : Except PyErr Time → System β → Prop} :
    Meets AnyStep (moment settings) s Q ↔
      Q (.ok (settings.env.clock s.draws)) { s with draws := s.draws + 1 } := by
  unfold moment
  simp

@[simp] theorem meets_utcnow_iso {Q : Except PyErr String → System β → Prop} :
    Meets AnyStep (utcnow_iso settings) s Q ↔
      Q (.ok (settings.storage.library.isoformat (settings.env.clock s.draws)))
        { s with draws := s.draws + 1 } := by
  unfold utcnow_iso
  simp

/-- The row that an append writes. -/
def audit_row (settings : Settings β) (s : System β) (log : PyDict) : List PyDict :=
  audit_logs.append_audit_log settings.env settings.sha256 s.audit_logs
    (settings.env.uuid4.hex12 s.draws)
    (settings.storage.library.isoformat (settings.env.clock (s.draws + 1))) log

theorem audit_row_concat (settings : Settings β) (s : System β) (log : PyDict) :
    ∃ entry, audit_row settings s log = s.audit_logs ++ [entry] := ⟨_, rfl⟩

@[simp] theorem meets_append_audit_log {log : PyDict} {Q : Except PyErr Unit → System β → Prop} :
    Meets AnyStep (append_audit_log settings log) s Q ↔
      Q (.ok ()) { s with audit_logs := audit_row settings s log, draws := s.draws + 2 } := by
  unfold append_audit_log
  simp [audit_row]

/-- Everything but the files, the log and the draws is as it was. -/
structure Same (s t : System β) : Prop where
  documents : t.documents = s.documents
  evaluations : t.evaluations = s.evaluations
  evaluation_reports : t.evaluation_reports = s.evaluation_reports
  legal_hold_objects : t.legal_hold_objects = s.legal_hold_objects
  draws : s.draws ≤ t.draws

theorem Same.refl (s : System β) : Same s s := ⟨rfl, rfl, rfl, rfl, le_refl _⟩

theorem Same.trans {u : System β} (h : Same s t) (h' : Same t u) : Same s u where
  documents := h'.documents.trans h.documents
  evaluations := h'.evaluations.trans h.evaluations
  evaluation_reports := h'.evaluation_reports.trans h.evaluation_reports
  legal_hold_objects := h'.legal_hold_objects.trans h.legal_hold_objects
  draws := h.draws.trans h'.draws

/-- The log has at most one more row. -/
def LogsOnce (s t : System β) : Prop :=
  t.audit_logs = s.audit_logs ∨ ∃ entry, t.audit_logs = s.audit_logs ++ [entry]

/-! ## A cleanup -/

/-- The clock was read with this answer between two states. -/
def ReadBetween (settings : Settings β) (s t : System β) (now : Time) : Prop :=
  ∃ n, s.draws ≤ n ∧ n < t.draws ∧ now = settings.env.clock n

/-- What a cleanup leaves: no change but in the log when it raises, and the
files as one delete leaves them. -/
structure Cleaned (settings : Settings β) (args : CleanupArgs) (s t : System β)
    (raised : Bool) : Prop where
  same : Same s t
  quiet : raised = true → t.files = s.files ∧ LogsOnce s t
  files : t.files = s.files ∨ ∃ storage_uri now,
    find_active_legal_hold s args.tenant_id args.object_type args.object_id = none ∧
      resolve_storage_uri s args.tenant_id args.object_type args.object_id =
        .ok (some storage_uri) ∧
      ReadBetween settings s t now ∧
      t.files = (delete_object settings.storage now storage_uri).final s.files

def raises : Except PyErr α → Bool
  | .ok _ => false
  | .error _ => true

theorem block_cleanup.spec {args : CleanupArgs} {storage_uri : Option String}
    {blocked_by code message : String} {details : PyDict} (s : System β) :
    Meets AnyStep (block_cleanup settings args storage_uri blocked_by code message details :
      HoldAct β α) s (fun r t => (∃ e, r = .error e) ∧ Same s t ∧ t.files = s.files ∧ LogsOnce s t) := by
  unfold block_cleanup
  simp only [meets_bind, meets_utcnow_iso, then_ok, meets_append_audit_log]
  unfold raise_api
  rw [meets_raise]
  refine ⟨⟨_, rfl⟩, ⟨rfl, rfl, rfl, rfl, ?_⟩, rfl, .inr (audit_row_concat _ _ _)⟩
  show s.draws ≤ s.draws + 1 + 2
  omega

theorem retained.spec {storage_uri : Option String} (s : System β) :
    Meets AnyStep (retained settings storage_uri) s
      (fun _ t => Same s t ∧ t.files = s.files ∧ t.audit_logs = s.audit_logs) := by
  cases storage_uri with
  | none =>
    rw [retained, meets_pure]
    exact ⟨.refl s, rfl, rfl⟩
  | some storage_uri =>
    rw [retained, meets_bind, meets_moment, then_ok, meets_on_files]
    refine ⟨⟨rfl, rfl, rfl, rfl, ?_⟩, looks_is_retention_active.final _, rfl⟩
    show s.draws ≤ s.draws + 1
    omega

theorem retention_details.spec {storage_uri : Option String} (s : System β) :
    Meets AnyStep (retention_details settings storage_uri) s
      (fun _ t => Same s t ∧ t.files = s.files ∧ t.audit_logs = s.audit_logs) := by
  have hsame : ∀ {m : Act β (Option Retention)}, m.final s.files = s.files →
      Same s { s with files := m.final s.files } ∧ m.final s.files = s.files ∧ s.audit_logs = s.audit_logs :=
    fun hm => ⟨⟨rfl, rfl, rfl, rfl, le_refl _⟩, hm, rfl⟩
  cases storage_uri with
  | none =>
    rw [retention_details, meets_pure]
    exact ⟨.refl s, rfl, rfl⟩
  | some storage_uri =>
    have hquiet : (get_retention settings.storage storage_uri).final s.files = s.files :=
      looks_get_retention.final s.files
    simp only [retention_details, meets_bind, meets_on_files]
    rcases (get_retention settings.storage storage_uri).result s.files with e | retention
    · exact hsame hquiet
    · rw [then_ok, meets_pure]
      exact hsame hquiet

/-- A delete on the way of a cleanup, from the state in which it starts. -/
theorem delete_stored.spec {storage_uri : Option String} (s : System β) :
    Meets AnyStep (delete_stored settings storage_uri) s (fun r t =>
      Same s t ∧ t.audit_logs = s.audit_logs ∧ (raises r = true → t.files = s.files) ∧
        (t.files = s.files ∨ ∃ uri now, storage_uri = some uri ∧ ReadBetween settings s t now ∧
          t.files = (delete_object settings.storage now uri).final s.files)) := by
  cases storage_uri with
  | none =>
    rw [delete_stored, meets_pure]
    exact ⟨.refl s, rfl, fun _ => rfl, .inl rfl⟩
  | some uri =>
    rw [delete_stored, meets_bind, meets_moment, then_ok, meets_on_files]
    refine ⟨⟨rfl, rfl, rfl, rfl, Nat.le_succ _⟩, rfl, fun h => ?_, .inr ⟨uri, _, rfl, ?_, rfl⟩⟩
    · rcases hresult : (delete_object settings.storage (settings.env.clock s.draws) uri).result
        s.files with e | deleted
      · exact delete_object_raises hresult
      · rw [hresult] at h
        cases h
    · exact ⟨s.draws, le_refl _, Nat.lt_succ_self _, rfl⟩

theorem ReadBetween.mono {s' t' : System β} {now : Time} (h : ReadBetween settings s t now)
    (hs : s'.draws ≤ s.draws) (ht : t.draws ≤ t'.draws) : ReadBetween settings s' t' now := by
  obtain ⟨n, hn, hlt, rfl⟩ := h
  exact ⟨n, hs.trans hn, lt_of_lt_of_le hlt ht, rfl⟩

theorem cleanup_free.spec {args : CleanupArgs} {storage_uri : Option String} (s : System β)
    (hfree : find_active_legal_hold s args.tenant_id args.object_type args.object_id = none)
    (huri : resolve_storage_uri s args.tenant_id args.object_type args.object_id = .ok storage_uri) :
    Meets AnyStep (cleanup_free settings args storage_uri) s
      (fun r t => Cleaned settings args s t (raises r)) := by
  unfold cleanup_free
  refine (retained.spec s).bind ?_ ?_
  · rintro (_ | _) t ⟨hsame, hfiles, hlogs⟩
    · rw [if_neg (by simp)]
      refine (delete_stored.spec t).bind ?_ ?_
      · rintro deleted u ⟨hsame', hlogs', -, hdelete⟩
        rw [meets_bind, meets_append_audit_log, then_ok, meets_pure]
        refine ⟨?_, fun h => (by cases h), ?_⟩
        · exact (hsame.trans hsame').trans ⟨rfl, rfl, rfl, rfl, Nat.le_add_right _ _⟩
        · rcases hdelete with hquiet | ⟨uri, now, rfl, hread, hdeleted⟩
          · exact .inl (hquiet.trans hfiles)
          · exact .inr ⟨uri, now, hfree, huri, hread.mono hsame.draws (Nat.le_add_right _ _),
              hfiles ▸ hdeleted⟩
      · rintro e u ⟨hsame', hlogs', hquiet, -⟩
        have hfiles' := (hquiet rfl).trans hfiles
        exact ⟨hsame.trans hsame', fun _ => ⟨hfiles', .inl (hlogs'.trans hlogs)⟩, .inl hfiles'⟩
    · rw [if_pos rfl]
      refine (retention_details.spec t).bind ?_ ?_
      · rintro details u ⟨hsame', hfiles', hlogs'⟩
        refine (block_cleanup.spec u).post ?_
        rintro r v ⟨⟨e, rfl⟩, hsame'', hfiles'', hlogs''⟩
        have hkept := hfiles''.trans (hfiles'.trans hfiles)
        have hlogged : LogsOnce s v := by
          unfold LogsOnce at hlogs'' ⊢
          rwa [hlogs', hlogs] at hlogs''
        exact ⟨(hsame.trans hsame').trans hsame'', fun _ => ⟨hkept, hlogged⟩, .inl hkept⟩
      · rintro e u ⟨hsame', hfiles', hlogs'⟩
        have hkept := hfiles'.trans hfiles
        exact ⟨hsame.trans hsame', fun _ => ⟨hkept, .inl (hlogs'.trans hlogs)⟩, .inl hkept⟩
  · rintro e t ⟨hsame, hfiles, hlogs⟩
    exact ⟨hsame, fun _ => ⟨hfiles, .inl hlogs⟩, .inl hfiles⟩

theorem execute_storage_cleanup.spec (settings : Settings β) (args : CleanupArgs) (s : System β) :
    Meets AnyStep (execute_storage_cleanup settings args) s
      (fun r t => Cleaned settings args s t (raises r)) := by
  unfold execute_storage_cleanup
  rw [meets_bind, meets_read, then_ok, meets_bind, meets_lift]
  rcases huri : resolve_storage_uri s args.tenant_id args.object_type args.object_id with e | storage_uri
  · rw [then_error]
    exact ⟨.refl s, fun _ => ⟨rfl, .inl rfl⟩, .inl rfl⟩
  · rw [then_ok]
    rcases hhold : find_active_legal_hold s args.tenant_id args.object_type args.object_id with _ | hold
    · exact cleanup_free.spec s hhold huri
    · refine (block_cleanup.spec s).post ?_
      rintro r t ⟨⟨e, rfl⟩, hsame, hfiles, hlogs⟩
      exact ⟨hsame, fun _ => ⟨hfiles, hlogs⟩, .inl hfiles⟩

end bid_evaluation.hold_steps
