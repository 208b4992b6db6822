-- The law of dual review: a discarded item and a released hold are signed by
-- two reviewers, here and in the audit log. A release marks the record before
-- it knows that it can free the blob, so one that then raises is not logged.
import BidEvaluation.AuditLaws
import BidEvaluation.DualReview
import BidEvaluation.HoldShapes

open dict_lib file_tree stepwise lockstep bid_evaluation.values bid_evaluation.object_storage
  bid_evaluation.hold_store bid_evaluation.hold_steps bid_evaluation.hold_shapes
  bid_evaluation.dual_review
open bid_evaluation.item_laws (Approved DiscardEnds discard_dlq_item.ends)
open bid_evaluation.endings (AnyStep)
open bid_evaluation.core (Env World)

namespace bid_evaluation.hold_review

variable {β α : Type} {settings : Settings β} {s t : System β}

/-! ## Holds -/

/-- The row of a release. -/
structure ReleaseLogged (log : PyDict) (tenant_id hold_id reviewer_a reviewer_b : String) : Prop where
  tenant_id : log.get "tenant_id" = .str tenant_id
  action : log.get "action" = .str "legal_hold_released"
  hold_id : log.get "hold_id" = .str hold_id
  reviewer_id : log.get "reviewer_id" = .str reviewer_a
  reviewer_id_2 : log.get "reviewer_id_2" = .str reviewer_b
  approval_reviewers : log.get "approval_reviewers" = .list [.str reviewer_a, .str reviewer_b]

/-- Each released hold is signed, and the audit log says who signed. -/
def HoldsReviewed (s : System β) : Prop := ∀ hold ∈ s.legal_hold_objects.values,
  hold.status = "released" → ∃ a b, Signed hold.release_reason hold.released_by hold.released_by_2 a b ∧
    ∃ log ∈ s.audit_logs, ReleaseLogged log hold.tenant_id hold.hold_id a b

/-- No hold becomes released, and the audit log only gets longer. -/
structure NoneReleased (s t : System β) : Prop where
  holds : ∀ id hold, t.legal_hold_objects.get? id = some hold → hold.status = "released" →
    s.legal_hold_objects.get? id = some hold
  logs : s.audit_logs <+: t.audit_logs

theorem NoneReleased.refl (s : System β) : NoneReleased s s :=
  ⟨fun _ _ h _ => h, List.prefix_refl _⟩

theorem NoneReleased.trans {u : System β} (h : NoneReleased s t) (h' : NoneReleased t u) :
    NoneReleased s u :=
  ⟨fun id hold hhold hstatus => h.holds id hold (h'.holds id hold hhold hstatus) hstatus,
    h.logs.trans h'.logs⟩

theorem none_released_same (hholds : t.legal_hold_objects = s.legal_hold_objects)
    (hlogs : s.audit_logs <+: t.audit_logs) : NoneReleased s t :=
  ⟨fun _ _ h _ => hholds ▸ h, hlogs⟩

theorem HoldsReviewed.kept (h : HoldsReviewed s) (hkept : NoneReleased s t) : HoldsReviewed t := by
  intro hold hhold hstatus
  rw [Table.mem_values_iff] at hhold
  have hbefore := (Table.mem_values_iff _ _).2 (hkept.holds _ hold hhold hstatus)
  obtain ⟨a, b, hsigned, log, hlog, hlogged⟩ := h hold hbefore hstatus
  exact ⟨a, b, hsigned, log, hkept.logs.subset hlog, hlogged⟩

/-- A row keeps what a log says under the names that an append does not write. -/
theorem audit_row_get (settings : Settings β) (s : System β) (log : PyDict) : ∃ row,
    audit_row settings s log = s.audit_logs ++ [row] ∧ ∀ key, key ≠ "audit_id" → key ≠ "occurred_at" →
      key ≠ "prev_hash" → key ≠ "audit_hash" → row.get key = log.get key := by
  refine ⟨_, rfl, fun key hid hat hprev hhash => ?_⟩
  unfold PyDict.get PyDict.getD PyDict.set
  rw [lookupEntry_setEntry, if_neg hhash, lookupEntry_setEntry, if_neg hprev,
    audit_laws.default_field_other _ hat, audit_laws.default_field_other _ hid]

/-! ## The operations that release nothing -/

abbrev ReleasesNone (m : HoldAct β α) : Prop := Keeps NoneReleased m

theorem releases_none_files (m : Act β α) : ReleasesNone (on_files m) := by
  intro s
  show Steps NoneReleased s ((m s.files).1.map fun files => { s with files := files })
  generalize (m s.files).1 = trees
  -- Each step starts from the store as it is, with other files.
  suffices h : ∀ u : System β, u.legal_hold_objects = s.legal_hold_objects →
      u.audit_logs = s.audit_logs →
        Steps NoneReleased u (trees.map fun files => { s with files := files }) from h s rfl rfl
  induction trees with
  | nil => exact fun _ _ _ => trivial
  | cons files rest ih =>
    intro u hholds hlogs
    exact ⟨none_released_same hholds.symm (by rw [hlogs]), ih _ rfl rfl⟩

-- From here on a program that keeps a relation is not looked into, or each use runs it.
attribute [local irreducible] Keeps

theorem releases_none_draw : ReleasesNone (hold_store.draw : HoldAct β Nat) :=
  keeps_bind keeps_read fun _ => keeps_bind
    (keeps_write fun _ => none_released_same rfl (List.prefix_refl _)) fun _ => keeps_pure _

theorem releases_none_uuid : ReleasesNone (hold_store.uuid4_hex12 settings) :=
  keeps_bind releases_none_draw fun _ => keeps_pure _

theorem releases_none_moment : ReleasesNone (moment settings) :=
  keeps_bind releases_none_draw fun _ => keeps_pure _

theorem releases_none_iso : ReleasesNone (utcnow_iso settings) :=
  keeps_bind releases_none_moment fun _ => keeps_pure _

theorem releases_none_log (log : PyDict) : ReleasesNone (append_audit_log settings log) :=
  keeps_bind releases_none_uuid fun _ => keeps_bind releases_none_iso fun _ =>
    keeps_write fun _ => none_released_same rfl (List.prefix_append _ _)

/-- A put of a hold that is not released. -/
theorem releases_none_put {hold : Hold} (h : hold.status ≠ "released") :
    ReleasesNone (hold_store.put_hold hold : HoldAct β Unit) := by
  refine keeps_write fun s => ⟨fun id found hfound hreleased => ?_, List.prefix_refl _⟩
  rw [Table.get?_put] at hfound
  split at hfound
  · cases hfound
    exact absurd hreleased h
  · exact hfound

theorem releases_none_apply (storage_uri : String) : ReleasesNone (apply_hold settings storage_uri) :=
  keeps_bind releases_none_moment fun _ => releases_none_files _

theorem releases_none_put_object (args : PutArgs β) : ReleasesNone (put_held_object settings args) := by
  refine keeps_bind releases_none_moment fun now => keeps_bind (releases_none_files _) fun uri =>
    keeps_bind keeps_read fun s => keeps_bind ?_ fun _ => keeps_pure _
  rcases hfound : find_active_legal_hold s args.tenant_id args.object_type args.object_id with _ | hold
  · exact keeps_pure _
  · obtain ⟨-, -, -, -, hstatus⟩ := find_active_legal_hold.spec hfound
    have hactive : hold.status ≠ "released" := by rw [hstatus]; decide
    exact keeps_bind (releases_none_put hactive) fun _ =>
      keeps_bind (releases_none_apply _) fun _ => keeps_pure _

theorem releases_none_upload (file : Upload β) : ReleasesNone (create_upload_job settings file) := by
  refine keeps_bind keeps_read fun s => ?_
  split
  · exact keeps_pure _
  · refine keeps_bind releases_none_uuid fun hex => keeps_bind ?_ fun uri => keeps_bind
      (keeps_write fun _ => none_released_same rfl (List.prefix_refl _)) fun _ => keeps_pure _
    unfold put_upload
    split
    · exact keeps_pure _
    · exact keeps_bind (releases_none_put_object _) fun _ => keeps_pure _

theorem releases_none_evaluation (tenant_id : String) :
    ReleasesNone (hold_store.create_evaluation settings tenant_id) :=
  keeps_bind releases_none_uuid fun _ => keeps_bind
    (keeps_write fun _ => none_released_same rfl (List.prefix_refl _)) fun _ => keeps_pure _

theorem releases_none_report (evaluation_id : String) (fields : PyDict) :
    ReleasesNone (hold_store.archive_report settings evaluation_id fields) := by
  refine keeps_bind keeps_read fun s => ?_
  split
  · exact keeps_pure _
  · refine keeps_bind ?_ fun _ => keeps_write fun _ => none_released_same rfl (List.prefix_refl _)
    exact keeps_ite (keeps_pure _)
      (keeps_bind (releases_none_put_object _) fun _ => keeps_pure _)

theorem releases_none_impose (args : ImposeArgs) :
    ReleasesNone (impose_legal_hold settings args) := by
  refine keeps_ite (keeps_raise _) (keeps_bind keeps_read fun s => ?_)
  split
  · exact keeps_pure _
  · refine keeps_bind releases_none_uuid fun hex => keeps_bind releases_none_iso fun at_ =>
      keeps_bind keeps_read fun s => keeps_bind (keeps_lift _) fun storage_uri => ?_
    refine keeps_bind ?_ fun _ => keeps_bind
      (releases_none_put (by decide : ¬ "active" = "released")) fun _ =>
        keeps_bind (releases_none_log _) fun _ => keeps_pure _
    cases storage_uri with
    | none => exact keeps_pure _
    | some uri => exact keeps_bind (releases_none_apply _) fun _ => keeps_pure _

theorem releases_none_block (args : CleanupArgs) (storage_uri : Option String)
    (blocked_by code message : String) (details : PyDict) :
    ReleasesNone (block_cleanup settings args storage_uri blocked_by code message details :
      HoldAct β α) :=
  keeps_bind releases_none_iso fun _ => keeps_bind (releases_none_log _) fun _ => keeps_raise _

theorem releases_none_cleanup (args : CleanupArgs) :
    ReleasesNone (execute_storage_cleanup settings args) := by
  refine keeps_bind keeps_read fun s => keeps_bind (keeps_lift _) fun storage_uri => ?_
  split
  · exact releases_none_block _ _ _ _ _ _
  · refine keeps_bind ?_ fun kept => keeps_ite (keeps_bind ?_ fun _ => releases_none_block _ _ _ _ _ _)
      (keeps_bind ?_ fun _ => keeps_bind (releases_none_log _) fun _ => keeps_pure _)
    all_goals cases storage_uri with
      | none => exact keeps_pure _
      | some uri => _
    · exact keeps_bind releases_none_moment fun _ => releases_none_files _
    · exact keeps_bind (releases_none_files _) fun _ => keeps_pure _
    · exact keeps_bind releases_none_moment fun _ => releases_none_files _

/-! ## A release -/

theorem check_release.approved {args : ReleaseArgs} {hold : Hold}
    (h : check_release s args = .ok hold) :
    Approved args.reason args.reviewer_id args.reviewer_id_2 := by
  unfold check_release at h
  split at h
  · cases h
  · split at h
    · cases h
    · split at h
      · cases h
      · split at h
        · cases h
        · rename_i happroved
          simp only [not_or] at happroved
          exact ⟨happroved.1, happroved.2.1, happroved.2.2.1, happroved.2.2.2⟩

/-- A release that passes its checks finds the blob of the hold, and the
storage can write its sidecar. -/
def Goes (settings : Settings β) (s : System β) (args : ReleaseArgs) : Prop :=
  ∀ hold, check_release s args = .ok hold → ∃ found, blob_of_hold s hold = .ok found ∧
    ∀ storage_uri, found = some storage_uri → ∀ now, ∃ there,
      (object_storage.release_legal_hold settings.storage now storage_uri).result s.files = .ok there

theorem release_stored.goes {found : Option String} (hgoes : ∀ storage_uri, found = some storage_uri →
    ∀ now, ∃ there, (object_storage.release_legal_hold settings.storage now storage_uri).result s.files =
      .ok there) :
    Meets AnyStep (release_stored settings found) s (fun r t => r = .ok () ∧
      t.legal_hold_objects = s.legal_hold_objects ∧ t.audit_logs = s.audit_logs) := by
  cases found with
  | none =>
    rw [release_stored, meets_pure]
    exact ⟨rfl, rfl, rfl⟩
  | some storage_uri =>
    obtain ⟨there, hthere⟩ := hgoes storage_uri rfl (settings.env.clock s.draws)
    rw [release_stored, meets_bind, meets_moment, then_ok, meets_bind, meets_on_files, hthere, then_ok,
      meets_pure]
    exact ⟨rfl, rfl, rfl⟩

/-- A release is refused and changes nothing, or it was approved. -/
inductive ReleaseEnds (s : System β) (args : ReleaseArgs) : Except PyErr Hold → System β → Prop where
  | refused (e : PyErr) (hcheck : check_release s args = .error e) : ReleaseEnds s args (.error e) s
  | released {hold hold' : Hold} {log : PyDict} {t : System β} (hcheck : check_release s args = .ok hold)
      (hsame : hold'.hold_id = hold.hold_id ∧ hold'.tenant_id = hold.tenant_id)
      (hsigned : Signed hold'.release_reason hold'.released_by hold'.released_by_2
        (strip args.reviewer_id) (strip args.reviewer_id_2))
      (hholds : ∀ id, t.legal_hold_objects.get? id =
        if id = hold'.hold_id then some hold' else s.legal_hold_objects.get? id)
      (hlogs : t.audit_logs = s.audit_logs ++ [log])
      (hlog : ReleaseLogged log args.tenant_id args.hold_id (strip args.reviewer_id)
        (strip args.reviewer_id_2)) :
      ReleaseEnds s args (.ok hold') t

theorem release_legal_hold.ends {args : ReleaseArgs} (hgoes : Goes settings s args) :
    Meets AnyStep (hold_store.release_legal_hold settings args) s (ReleaseEnds s args) := by
  unfold hold_store.release_legal_hold hold_store.put_hold
  rw [meets_bind, meets_read, then_ok, meets_bind, meets_lift]
  rcases hcheck : check_release s args with e | hold
  · exact .refused e hcheck
  obtain ⟨found, hfound, hwrites⟩ := hgoes hold hcheck
  have happroved := check_release.approved hcheck
  rw [then_ok, meets_bind, meets_utcnow_iso, then_ok]
  dsimp only
  rw [meets_bind, meets_update, then_ok, meets_bind, meets_read, then_ok, meets_bind, meets_lift]
  -- The blob is looked up in the store with the new record, which has the same names.
  have hblob : ∀ holds draws released_at, blob_of_hold
      { s with legal_hold_objects := holds, draws := draws } (released hold args released_at) =
        .ok found := fun _ _ _ => hfound
  rw [hblob, then_ok]
  dsimp only
  rw [meets_bind, meets_update, then_ok]
  refine (release_stored.goes ?_).bind ?_ ?_
  · exact hwrites
  · rintro _ t ⟨-, hholds, hlogs⟩
    rw [meets_bind, meets_append_audit_log, then_ok, meets_pure]
    obtain ⟨row, hrow, hget⟩ := audit_row_get settings t _
    rw [hrow, hlogs]
    refine .released hcheck ⟨rfl, rfl⟩ (signed_of_approved happroved (strip_strip _))
      (fun id => ?_) rfl ?_
    · rw [hholds, Table.get?_put, Table.get?_put]
      split <;> rfl
    · constructor <;> exact hget _ (by decide) (by decide) (by decide) (by decide)
  · rintro e t ⟨hok, -⟩
    cases hok

theorem HoldsReviewed.released (h : HoldsReviewed s) {args : ReleaseArgs} {r : Except PyErr Hold}
    (hends : ReleaseEnds s args r t) : HoldsReviewed t := by
  cases hends with
  | refused e hcheck => exact h
  | released hcheck hsame hsigned hholds hlogs hlog =>
    obtain ⟨hget, htenant, -⟩ := check_release.spec hcheck
    intro hold hhold hstatus
    rw [Table.mem_values_iff, hholds] at hhold
    rw [hlogs]
    split at hhold
    · cases hhold
      rw [hsame.1, hsame.2, htenant, hold_key hget]
      exact ⟨_, _, hsigned, _, List.mem_concat_self, hlog⟩
    · obtain ⟨a, b, hsigned', log, hin, hlogged⟩ := h hold ((Table.mem_values_iff _ _).2 hhold) hstatus
      exact ⟨a, b, hsigned', log, List.mem_append_left _ hin, hlogged⟩

/-! ## Runs -/

/-- What a request has to meet. -/
def Fine (settings : Settings β) (s : System β) (request : Request β) : Prop :=
  ∀ args, request.op = .release args → Goes (settings.under request.modes) s args

/-- An operation, under the modes of its request, keeps the released holds signed. -/
theorem reviewed_act {op : hold_store.Op β} (hgoes : ∀ args, op = .release args → Goes settings s args)
    (h : HoldsReviewed s) : HoldsReviewed ((op.act settings).final s) := by
  have hkept : ∀ {m : HoldAct β Unit}, ReleasesNone m → HoldsReviewed (m.final s) := fun hm =>
    h.kept (Keeps.final hm NoneReleased.refl (fun _ _ _ => NoneReleased.trans) s)
  have hquiet : ∀ {α : Type} {m : HoldAct β α}, ReleasesNone m → ReleasesNone (hold_store.quiet m) :=
    fun hm => keeps_bind hm fun _ => keeps_pure _
  cases op with
  | upload file =>
    rw [Op.act]
    exact hkept (hquiet (releases_none_upload file))
  | create_evaluation tenant_id =>
    rw [Op.act]
    exact hkept (hquiet (releases_none_evaluation tenant_id))
  | archive_report evaluation_id fields =>
    rw [Op.act]
    exact hkept (releases_none_report evaluation_id fields)
  | impose args =>
    rw [Op.act]
    exact hkept (hquiet (releases_none_impose args))
  | cleanup args =>
    rw [Op.act]
    exact hkept (hquiet (releases_none_cleanup args))
  | release args =>
    obtain ⟨-, hends⟩ := release_legal_hold.ends (hgoes args rfl)
    rw [Op.act, hold_store.quiet, final_bind_pure]
    exact h.released hends

/-- A release that goes and raises changes nothing. -/
theorem refused_release {args : ReleaseArgs} {e : PyErr} (hgoes : Goes settings s args)
    (he : ((hold_store.Op.release args).act settings).result s = .error e) :
    ((hold_store.Op.release args).act settings).final s = s := by
  obtain ⟨-, hends⟩ := release_legal_hold.ends hgoes
  rw [Op.act, hold_store.quiet] at he ⊢
  rw [final_bind_pure]
  rcases hresult : (hold_store.release_legal_hold settings args).result s with e' | hold
  · rw [hresult] at hends
    generalize (hold_store.release_legal_hold settings args).final s = t at hends ⊢
    cases hends
    rfl
  · rw [result_bind hresult] at he
    cases he

/-- Dual review, of the items in every run and of the holds in this one. A
call that is refused changes nothing at all. -/
structure DualReview (env : Env) (settings : Settings β) (requests : List (Request β)) : Prop where
  items : ∀ ops, ItemsReviewed (operations.after env World.start ops)
  refused_discard : ∀ w dlq_id reason reviewer_id reviewer_id_2 tenant_id trace_id e,
    (store_ops.discard_dlq_item env dlq_id reason reviewer_id reviewer_id_2 tenant_id
      trace_id).result w = .error e →
    (store_ops.discard_dlq_item env dlq_id reason reviewer_id reviewer_id_2 tenant_id
      trace_id).final w = w
  holds : ∀ before, before <+: requests →
    HoldsReviewed ((hold_store.machine settings).after before)
  refused_release : ∀ before modes args e, before ++ [⟨modes, .release args⟩] <+: requests →
    (hold_store.machine settings).answer before ⟨modes, .release args⟩ = .error e →
      (hold_store.machine settings).after (before ++ [⟨modes, .release args⟩]) =
        (hold_store.machine settings).after before

theorem refused_discard (env : Env) (w : World)
    (dlq_id reason reviewer_id reviewer_id_2 tenant_id trace_id : String) (e : PyErr)
    (h : (store_ops.discard_dlq_item env dlq_id reason reviewer_id reviewer_id_2 tenant_id
      trace_id).result w = .error e) :
    (store_ops.discard_dlq_item env dlq_id reason reviewer_id reviewer_id_2 tenant_id
      trace_id).final w = w := by
  have hends := (discard_dlq_item.ends env dlq_id reason reviewer_id reviewer_id_2 tenant_id trace_id w).2
  rw [h] at hends
  generalize (store_ops.discard_dlq_item env dlq_id reason reviewer_id reviewer_id_2 tenant_id
    trace_id).final w = t at hends ⊢
  cases hends
  rfl

/-- Dual review holds in each run whose releases all go. -/
theorem reviewed_when_releases_go (env : Env) (settings : Settings β) (requests : List (Request β))
    (hfine : Throughout (hold_store.machine settings) (Fine settings) requests) :
    DualReview env settings requests := by
  have hholds : ∀ before, before <+: requests →
      HoldsReviewed ((hold_store.machine settings).after before) := by
    refine along (fun hold hhold => ?_) fun before request hpart h => ?_
    · simp [hold_store.machine, System.empty, Table.mem_values_iff] at hhold
    · rw [Machine.after_concat]
      exact reviewed_act (hfine before request hpart) h
  refine ⟨fun ops => items_reviewed env ops, refused_discard env, hholds, fun before modes args e hpart he => ?_⟩
  rw [Machine.after_concat]
  exact refused_release (hfine before _ hpart args rfl) he

/-! ## Two runs -/

def report_hold : ImposeArgs := ⟨"ann", "report", "ev_", "audit", "ann", "trace"⟩

def report_release (hold_id : String) : ReleaseArgs := ⟨hold_id, "ann", "done", "eva", "tom", "trace"⟩

theorem lone_hold_goes : Goes (plain_settings.under loose)
    ((hold_store.machine plain_settings).after [⟨loose, .impose report_hold⟩]) (report_release "hold_") := by
  intro hold hcheck
  have hblob : (check_release ((hold_store.machine plain_settings).after [⟨loose, .impose report_hold⟩])
      (report_release "hold_")).toOption.map (fun hold => (blob_of_hold ((hold_store.machine
        plain_settings).after [⟨loose, .impose report_hold⟩]) hold).toOption) = some (some none) := by
    decide +kernel
  rw [hcheck] at hblob
  refine ⟨none, ?_, fun _ hnone => by cases hnone⟩
  exact ok_of_toOption (Option.some.inj hblob)

/-- A hold that is imposed and released. -/
theorem lone_hold_is_reviewed : DualReview operations.calm_env plain_settings
    [⟨loose, .impose report_hold⟩, ⟨loose, .release (report_release "hold_")⟩] := by
  have hfirst : Throughout (hold_store.machine plain_settings) (Fine plain_settings)
      [⟨loose, .impose report_hold⟩] :=
    throughout_concat [] (throughout_nil _ _) fun args he => by cases he
  refine reviewed_when_releases_go _ _ _ (throughout_concat [_] hfirst fun args he => ?_)
  cases he
  exact lone_hold_goes

/-- A hold on the name of a report that another tenant gets. -/
def foreign_report : List (Request FileText) :=
  [⟨loose, .create_evaluation "bob"⟩, ⟨loose, .impose report_hold⟩, ⟨loose, .archive_report "ev_" []⟩,
    ⟨loose, .release (report_release "hold_a")⟩]

theorem raised_release_is_not_logged : ¬ DualReview operations.calm_env plain_settings foreign_report := by
  intro h
  have hstatus : (((hold_store.machine plain_settings).after foreign_report).legal_hold_objects.get?
      "hold_a").map (fun hold => hold.status) = some "released" := by decide +kernel
  have hactions : ((hold_store.machine plain_settings).after foreign_report).audit_logs.map
      (fun row => (row.get "action").toStr plain_settings.env.repr) = ["legal_hold_imposed"] := by decide +kernel
  obtain ⟨hold, hget, hreleased⟩ := Option.map_eq_some_iff.1 hstatus
  have hin : hold ∈ ((hold_store.machine plain_settings).after foreign_report).legal_hold_objects.values := by
    rw [Table.mem_values_iff, hold_key hget]
    exact hget
  obtain ⟨a, b, -, log, hlog, hlogged⟩ := h.holds _ (List.prefix_refl _) hold hin hreleased
  have haction := List.mem_map_of_mem (f := fun row : PyDict =>
    (row.get "action").toStr plain_settings.env.repr) hlog
  rw [hactions, hlogged.action] at haction
  exact absurd haction (by decide)

end bid_evaluation.hold_review
