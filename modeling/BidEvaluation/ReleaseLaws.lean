-- The law of releases: a release that raises leaves the record of the hold as
-- it was, and one that returns has freed the blob, exactly when the blob is
-- found and the storage does what it is told.
import BidEvaluation.HoldBackends
import BidEvaluation.HoldShapes

open dict_lib file_tree stepwise twins bid_evaluation.values bid_evaluation.object_storage
  bid_evaluation.object_frames bid_evaluation.protection_laws bid_evaluation.blob_flags
  bid_evaluation.hold_store bid_evaluation.hold_steps bid_evaluation.hold_shapes
  bid_evaluation.hold_backends
open bid_evaluation.endings (AnyStep)
open bid_evaluation.worm_laws (FileText)

namespace bid_evaluation.release_laws

variable {β σ α δ : Type} {settings : Settings β} {backend : ObjectStorageBackend σ}
  {args : ReleaseArgs} {b : Backed β σ}

/-! ## The two backends -/

/-- After a release by the local storage the hold is off. -/
theorem local_cleared {storage : LocalObjectStorage β} {now : Time} {storage_uri : String}
    {t : FileTree β} :
    ¬Held storage storage_uri
      ((object_storage.release_legal_hold storage now storage_uri).final t) := by
  unfold object_storage.release_legal_hold
  rw [protection_laws.held_iff]
  rintro ⟨fields', hfields', hflag⟩
  by_cases hsidecar : ∃ fields, Sidecar storage storage_uri t fields
  · obtain ⟨fields, hfields⟩ := hsidecar
    obtain ⟨fields'', hfields'', hsame⟩ := edit_meta_fields
      (fun fields => (fields.set "legal_hold" (.bool false)).set "legal_hold_released_at"
        (.str (storage.library.isoformat now))) hfields
    have hoff : hold_flag fields'' = false :=
      (hold_flag_agrees (hsame _)).trans (hold_flag_set fields false "legal_hold_released_at" _
        (by decide))
    exact not_flagged_of_sidecar hfields'' hoff (.of_sidecar hfields' hflag)
  · rw [(edit_meta_quiet hsidecar).1] at hfields'
    exact hsidecar ⟨fields', hfields'⟩

/-- `LocalObjectStorage` as a backend. -/
def local_backend (storage : LocalObjectStorage β) : ObjectStorageBackend (FileTree β) where
  release_legal_hold := object_storage.release_legal_hold storage
  held := Held storage
  cleared _ _ _ _ := local_cleared

section s3

variable {storage_uri : String} {objects : σ}

/-- The S3 backend answers whether its client did as it was told, and leaves
what the client leaves. -/
theorem s3_release.spec (client : S3Client σ) (objects : σ) {parsed : ParsedUri}
    (hparsed : parse_storage_uri storage_uri = .ok parsed) :
    (s3_release_legal_hold client storage_uri).result objects =
        .ok ((client.put_object_legal_hold parsed.bucket parsed.key "OFF").result objects).isOk ∧
      (s3_release_legal_hold client storage_uri).final objects =
        (client.put_object_legal_hold parsed.bucket parsed.key "OFF").final objects := by
  have hmeets : Meets AnyStep (s3_release_legal_hold client storage_uri) objects (fun r t =>
      r = .ok ((client.put_object_legal_hold parsed.bucket parsed.key "OFF").result objects).isOk ∧
        t = (client.put_object_legal_hold parsed.bucket parsed.key "OFF").final objects) := by
    unfold s3_release_legal_hold
    rw [hparsed, meets_bind, meets_lift, then_ok, meets_catching, meets_bind]
    refine ⟨keeps_true _ _, ?_⟩
    rcases (client.put_object_legal_hold parsed.bucket parsed.key "OFF").result objects with e | _
    · rw [then_error, handled_error, meets_pure]
      exact ⟨rfl, rfl⟩
    · rw [then_ok, meets_pure, handled_ok]
      exact ⟨rfl, rfl⟩
  exact hmeets.2

theorem s3_cleared (client : S3Client σ)
    (h : (s3_release_legal_hold client storage_uri).result objects = .ok true) :
    ¬S3Held client storage_uri ((s3_release_legal_hold client storage_uri).final objects) := by
  rintro ⟨parsed, hparsed, hon⟩
  obtain ⟨hresult, hfinal⟩ := s3_release.spec client objects hparsed
  rw [hresult] at h
  rw [hfinal] at hon
  rcases hput : (client.put_object_legal_hold parsed.bucket parsed.key "OFF").result objects with e | _
  · rw [hput] at h
    cases h
  · rw [client.answered _ _ _ _ hput] at hon
    exact absurd hon (by decide)

end s3

/-- `S3ObjectStorage` as a backend. -/
def s3_backend (client : S3Client σ) : ObjectStorageBackend σ where
  release_legal_hold _ := s3_release_legal_hold client
  held := S3Held client
  cleared _ _ _ h := s3_cleared client h

/-! ## One release -/

theorem meets_on_system {m : HoldAct β α} {Q : Except PyErr α → Backed β σ → Prop} :
    Meets AnyStep (on_system m) b Q ↔ Q (m.result b.system) { b with system := m.final b.system } := by
  have hfinal : (on_system m).final b = { b with system := m.final b.system } :=
    lastState_map (fun s => ({ b with system := s } : Backed β σ)) b.system (m b.system).1
  unfold Meets
  rw [hfinal]
  exact ⟨fun h => h.2, fun h => ⟨keeps_true _ _, h⟩⟩

theorem meets_on_objects {m : Prog σ PyErr α} {Q : Except PyErr α → Backed β σ → Prop} :
    Meets AnyStep (on_objects m) b Q ↔
      Q (m.result b.objects) { b with objects := m.final b.objects } := by
  have hfinal : (on_objects m).final b = { b with objects := m.final b.objects } :=
    lastState_map (fun objects => ({ b with objects := objects } : Backed β σ)) b.objects (m b.objects).1
  unfold Meets
  rw [hfinal]
  exact ⟨fun h => h.2, fun h => ⟨keeps_true _ _, h⟩⟩

/-- Run a program of the store that meets a condition, then what comes after. -/
theorem past_system {m : HoldAct β α} {f : α → BackedAct β σ δ}
    {P : Except PyErr α → System β → Prop} {Q : Except PyErr δ → Backed β σ → Prop}
    (h : Meets AnyStep m b.system P)
    (hok : ∀ a s, P (.ok a) s → Meets AnyStep (f a) { b with system := s } Q)
    (herror : ∀ e s, P (.error e) s → Q (.error e) { b with system := s }) :
    Meets AnyStep (on_system m >>= f) b Q := by
  refine Meets.bind (P := fun r b' => P r b'.system ∧ b' = { b with system := b'.system }) ?_ ?_ ?_
  · rw [meets_on_system]
    exact ⟨h.2, rfl⟩
  · rintro a b' ⟨hP, hb'⟩
    rw [hb']
    exact hok a _ hP
  · rintro e b' ⟨hP, hb'⟩
    rw [hb']
    exact herror e _ hP

/-- The time that the call of the storage gets. -/
def call_time (settings : Settings β) (b : Backed β σ) : Time :=
  settings.env.clock (b.system.draws + 1)

/-- The hold says that it was released. -/
def Marked (args : ReleaseArgs) (b : Backed β σ) : Prop :=
  ∃ hold, b.system.legal_hold_objects.get? args.hold_id = some hold ∧ hold.status = "released"

/-- How a release ends. All but a refused one leave the hold marked. -/
inductive Ends (settings : Settings β) (backend : ObjectStorageBackend σ) (args : ReleaseArgs)
    (b : Backed β σ) : Except PyErr Hold → Backed β σ → Prop where
  | refused (e : PyErr) (hcheck : check_release b.system args = .error e) :
      Ends settings backend args b (.error e) b
  | lost {hold : Hold} {e : PyErr} {b' : Backed β σ}
      (hcheck : check_release b.system args = .ok hold)
      (hblob : blob_of_hold b.system hold = .error e) (hmarked : Marked args b') :
      Ends settings backend args b (.error e) b'
  | bare {hold hold' : Hold} {b' : Backed β σ} (hcheck : check_release b.system args = .ok hold)
      (hblob : blob_of_hold b.system hold = .ok none) :
      Ends settings backend args b (.ok hold') b'
  | raised {hold : Hold} {storage_uri : String} {e : PyErr} {b' : Backed β σ}
      (hcheck : check_release b.system args = .ok hold)
      (hblob : blob_of_hold b.system hold = .ok (some storage_uri))
      (hcall : (backend.release_legal_hold (call_time settings b) storage_uri).result b.objects =
        .error e) (hmarked : Marked args b') :
      Ends settings backend args b (.error e) b'
  | called {hold hold' : Hold} {storage_uri : String} {answer : Bool} {b' : Backed β σ}
      (hcheck : check_release b.system args = .ok hold)
      (hblob : blob_of_hold b.system hold = .ok (some storage_uri))
      (hcall : (backend.release_legal_hold (call_time settings b) storage_uri).result b.objects =
        .ok answer)
      (hobjects : b'.objects =
        (backend.release_legal_hold (call_time settings b) storage_uri).final b.objects) :
      Ends settings backend args b (.ok hold') b'

theorem release_legal_hold.ends (settings : Settings β) (backend : ObjectStorageBackend σ)
    (args : ReleaseArgs) (b : Backed β σ) :
    Meets AnyStep (hold_backends.release_legal_hold settings backend args) b
      (Ends settings backend args b) := by
  unfold hold_backends.release_legal_hold hold_store.put_hold
  rw [meets_bind, meets_read, then_ok, meets_bind, meets_lift]
  rcases hcheck : check_release b.system args with e | hold
  · exact .refused e hcheck
  have hkey : hold.hold_id = args.hold_id := hold_key (check_release.spec hcheck).1
  rw [then_ok]
  refine past_system (P := fun r s => s = { b.system with draws := b.system.draws + 1 } ∧
    ∃ released_at, r = .ok released_at) ?_ ?_ (by rintro e s ⟨-, _, he⟩; cases he)
  · rw [meets_utcnow_iso]
    exact ⟨rfl, _, rfl⟩
  rintro released_at _ ⟨rfl, -⟩
  refine past_system (P := fun r s => s = { b.system with
      legal_hold_objects := b.system.legal_hold_objects.put (released hold args released_at)
      draws := b.system.draws + 1 } ∧ r = .ok ()) ?_ ?_ (by rintro e s ⟨-, he⟩; cases he)
  · rw [meets_update]
    exact ⟨rfl, rfl⟩
  rintro _ _ ⟨rfl, -⟩
  rw [meets_bind, meets_read, then_ok, meets_bind, meets_lift]
  -- The blob is looked up in the store with the new record, which has the same names.
  have hblob : blob_of_hold { b.system with
      legal_hold_objects := b.system.legal_hold_objects.put (released hold args released_at)
      draws := b.system.draws + 1 } (released hold args released_at) =
        blob_of_hold b.system hold := rfl
  dsimp only
  rw [hblob]
  rcases hfound : blob_of_hold b.system hold with e | found
  · refine .lost hcheck hfound ⟨released hold args released_at, ?_, rfl⟩
    rw [← hkey]
    exact Table.get?_put_self _ _
  rw [then_ok]
  refine past_system (P := fun r s => Marked args ⟨s, b.objects⟩ ∧
    s.draws = b.system.draws + 1 ∧ r = .ok ()) ?_ ?_ (by rintro e s ⟨-, -, he⟩; cases he)
  · rw [meets_update]
    refine ⟨⟨{ released hold args released_at with
      storage_uri := found.or (released hold args released_at).storage_uri }, ?_, rfl⟩, rfl, rfl⟩
    rw [← hkey]
    exact Table.get?_put_self _ _
  rintro _ s ⟨hmarked, hdraws, -⟩
  -- The log is in the store, so what it adds says nothing of the objects.
  have hlogs : ∀ (b' : Backed β σ) log hold',
      (∀ s', Ends settings backend args b (.ok hold') { b' with system := s' }) →
      Meets AnyStep (on_system (append_audit_log settings log) >>= fun _ => pure hold') b'
        (Ends settings backend args b) := by
    intro b' log hold' hends
    refine past_system (P := fun r _ => r = .ok ()) ?_ ?_ (by rintro e s' he; cases he)
    · rw [meets_append_audit_log]
    · intro _ s' _
      rw [meets_pure]
      exact hends s'
  rcases found with _ | storage_uri
  · rw [meets_bind, release_object, meets_pure, then_ok]
    exact hlogs _ _ _ fun s' => .bare hcheck hfound
  · rw [release_object, then_assoc]
    refine past_system (P := fun r s' => r = .ok (call_time settings b) ∧
      s'.legal_hold_objects = s.legal_hold_objects) ?_ ?_ (by rintro e s' ⟨he, -⟩; cases he)
    · rw [meets_moment]
      refine ⟨?_, rfl⟩
      unfold call_time
      rw [hdraws]
    rintro _ s' ⟨⟨⟩, hholds⟩
    rw [then_assoc, meets_bind, meets_on_objects]
    rcases hcall : (backend.release_legal_hold (call_time settings b) storage_uri).result b.objects
      with e | answer
    · rw [then_error]
      obtain ⟨marked, hget, hstatus⟩ := hmarked
      refine .raised hcheck hfound hcall ⟨marked, ?_, hstatus⟩
      rw [hholds]
      exact hget
    · rw [then_ok, meets_bind, meets_pure, then_ok]
      exact hlogs _ _ _ fun s'' => .called hcheck hfound hcall rfl

/-! ## The release over the local storage -/

/-- The store with the objects of its storage as its files. -/
def merge (b : Backed β (FileTree β)) : System β := { b.system with files := b.objects }

def Merged (b : Backed β (FileTree β)) (s : System β) : Prop := s = merge b

/-- A program of the store that neither reads nor writes its files. -/
def Fileless (m : HoldAct β α) : Prop := ∀ (s : System β) files,
  m.result { s with files := files } = m.result s ∧
    m.final { s with files := files } = { m.final s with files := files }

theorem twins_system {m : HoldAct β α} {P : Backed β (FileTree β) → Prop} (h : Fileless m) :
    Twins Merged P (on_system m) m (fun _ _ => True) := by
  rintro b _ rfl -
  obtain ⟨hresult, hfinal⟩ := h b.system b.objects
  have hlast : (on_system m).final b = { b with system := m.final b.system } :=
    lastState_map (fun s => ({ b with system := s } : Backed β (FileTree β))) b.system (m b.system).1
  refine ⟨hresult.symm, ?_, fun _ _ => trivial⟩
  rw [hlast]
  exact hfinal

theorem twins_objects {m : object_storage.Act β α} {P : Backed β (FileTree β) → Prop} :
    Twins Merged P (on_objects m) (on_files m) (fun _ _ => True) := by
  rintro b _ rfl -
  have hlast : (on_objects m).final b = { b with objects := m.final b.objects } :=
    lastState_map (fun objects => ({ b with objects := objects } : Backed β (FileTree β))) b.objects (m b.objects).1
  refine ⟨rfl, ?_, fun _ _ => trivial⟩
  rw [hlast]
  exact lastState_map (fun t => ({ merge b with files := t } : System β)) b.objects (m b.objects).1

theorem twins_read {f : Backed β (FileTree β) → BackedAct β (FileTree β) α} {g : System β → HoldAct β α}
    {P : Backed β (FileTree β) → Prop} {Q : α → Backed β (FileTree β) → Prop}
    (h : ∀ b, Twins Merged P (f b) (g (merge b)) Q) :
    Twins Merged P (stepwise.read >>= f) (stepwise.read >>= g) Q := by
  rintro b _ rfl hP
  exact h b b (merge b) rfl hP

theorem twins_lift (r : Except PyErr α) {P : Backed β (FileTree β) → Prop} :
    Twins Merged P (lift r) (lift r) (fun _ _ => True) :=
  fun _ _ hmerged _ => ⟨rfl, hmerged, fun _ _ => trivial⟩

/-- Over the local storage it is the release of the store and its files. -/
theorem local_release_twins (settings : Settings β) (args : ReleaseArgs) :
    Twins Merged (fun _ => True)
      (hold_backends.release_legal_hold settings (local_backend settings.storage) args)
      (hold_store.release_legal_hold settings args) (fun _ _ => True) := by
  unfold hold_backends.release_legal_hold hold_store.release_legal_hold
  refine twins_read fun b => (twins_lift _).bind fun hold => ?_
  refine (twins_system fun _ _ => ⟨rfl, rfl⟩).bind fun released_at => ?_
  refine (twins_system fun _ _ => ⟨rfl, rfl⟩).bind fun _ => ?_
  refine twins_read fun b => (twins_lift _).bind fun storage_uri => ?_
  refine (twins_system fun _ _ => ⟨rfl, rfl⟩).bind fun _ => ?_
  refine Twins.bind (Q := fun _ _ => True) ?_ fun _ =>
    (twins_system fun _ _ => ⟨rfl, rfl⟩).bind fun _ => twins_pure _ fun _ _ => trivial
  cases storage_uri with
  | none => exact twins_pure _ fun _ _ => trivial
  | some storage_uri =>
    exact (twins_system fun _ _ => ⟨rfl, rfl⟩).bind fun now =>
      twins_objects.bind fun _ => twins_pure _ fun _ _ => trivial

/-! ## All or nothing -/

/-- A release that raises keeps the record as it was, and one that returns has
taken the hold off the blob. -/
structure AllOrNothing (settings : Settings β) (backend : ObjectStorageBackend σ)
    (args : ReleaseArgs) (b : Backed β σ) : Prop where
  kept : ∀ e, (hold_backends.release_legal_hold settings backend args).result b = .error e →
    ((hold_backends.release_legal_hold settings backend args).final b).system.legal_hold_objects.get?
      args.hold_id = b.system.legal_hold_objects.get? args.hold_id
  freed : ∀ hold', (hold_backends.release_legal_hold settings backend args).result b = .ok hold' →
    ∀ hold, check_release b.system args = .ok hold → ∀ storage_uri,
      blob_of_hold b.system hold = .ok (some storage_uri) → ¬backend.held storage_uri
        ((hold_backends.release_legal_hold settings backend args).final b).objects

/-- The storage answers that it did as it was told, or it answers that it did
nothing and the blob has no hold. -/
def Obeys (settings : Settings β) (backend : ObjectStorageBackend σ) (b : Backed β σ)
    (storage_uri : String) : Prop :=
  (backend.release_legal_hold (call_time settings b) storage_uri).result b.objects = .ok true ∨
    (backend.release_legal_hold (call_time settings b) storage_uri).result b.objects = .ok false ∧
      ¬backend.held storage_uri
        ((backend.release_legal_hold (call_time settings b) storage_uri).final b.objects)

/-- A release that passes its checks finds the blob, and its storage obeys. -/
def GoesThrough (settings : Settings β) (backend : ObjectStorageBackend σ) (args : ReleaseArgs)
    (b : Backed β σ) : Prop :=
  ∀ hold, check_release b.system args = .ok hold → ∃ found, blob_of_hold b.system hold = .ok found ∧
    ∀ storage_uri, found = some storage_uri → Obeys settings backend b storage_uri

/-- A hold that may be released is active. -/
theorem marked_is_changed {b' : Backed β σ} {hold : Hold}
    (hcheck : check_release b.system args = .ok hold) (hmarked : Marked args b') :
    b'.system.legal_hold_objects.get? args.hold_id ≠ b.system.legal_hold_objects.get? args.hold_id := by
  obtain ⟨hget, -, hactive⟩ := check_release.spec hcheck
  obtain ⟨hold', hget', hreleased⟩ := hmarked
  rw [hget, hget']
  rintro ⟨⟩
  rw [hactive] at hreleased
  exact absurd hreleased (by decide)

/-- Over any storage, in any state and for any arguments, a release is all or
nothing exactly when it finds the blob and the storage obeys. -/
theorem release_is_all_or_nothing_iff (settings : Settings β) (backend : ObjectStorageBackend σ)
    (args : ReleaseArgs) (b : Backed β σ) :
    AllOrNothing settings backend args b ↔ GoesThrough settings backend args b := by
  have hends := (release_legal_hold.ends settings backend args b).2
  constructor
  · intro h hold hcheck
    have hkept := h.kept
    have hfreed := h.freed
    generalize (hold_backends.release_legal_hold settings backend args).result b = r at *
    generalize (hold_backends.release_legal_hold settings backend args).final b = b' at *
    cases hends with
    | refused e hcheck' =>
      rw [hcheck] at hcheck'
      cases hcheck'
    | lost hcheck' hblob hmarked => exact absurd (hkept _ rfl) (marked_is_changed hcheck hmarked)
    | raised hcheck' hblob hcall hmarked =>
      exact absurd (hkept _ rfl) (marked_is_changed hcheck hmarked)
    | bare hcheck' hblob =>
      cases Except.ok.inj (hcheck.symm.trans hcheck')
      exact ⟨none, hblob, fun _ hsome => by cases hsome⟩
    | @called _ _ storage_uri answer _ hcheck' hblob hcall hobjects =>
      cases Except.ok.inj (hcheck.symm.trans hcheck')
      refine ⟨some storage_uri, hblob, ?_⟩
      rintro _ ⟨⟩
      cases answer with
      | true => exact .inl hcall
      | false =>
        refine .inr ⟨hcall, ?_⟩
        rw [← hobjects]
        exact hfreed _ rfl _ hcheck _ hblob
  · intro h
    constructor
    · intro e he
      rw [he] at hends
      generalize (hold_backends.release_legal_hold settings backend args).final b = b' at *
      cases hends with
      | refused => rfl
      | lost hcheck hblob hmarked =>
        obtain ⟨found, hfound, -⟩ := h _ hcheck
        rw [hblob] at hfound
        cases hfound
      | raised hcheck hblob hcall hmarked =>
        obtain ⟨found, hfound, hobeys⟩ := h _ hcheck
        cases Except.ok.inj (hblob.symm.trans hfound)
        rcases hobeys _ rfl with hcall' | ⟨hcall', -⟩
        · rw [hcall] at hcall'
          cases hcall'
        · rw [hcall] at hcall'
          cases hcall'
    · intro hold' hok hold hcheck storage_uri hblob
      rw [hok] at hends
      generalize (hold_backends.release_legal_hold settings backend args).final b = b' at *
      cases hends with
      | bare hcheck' hblob' =>
        cases Except.ok.inj (hcheck.symm.trans hcheck')
        rw [hblob] at hblob'
        cases hblob'
      | called hcheck' hblob' hcall hobjects =>
        cases Except.ok.inj (hcheck.symm.trans hcheck')
        cases Option.some.inj (Except.ok.inj (hblob.symm.trans hblob'))
        obtain ⟨found, hfound, hobeys⟩ := h _ hcheck
        cases Except.ok.inj (hblob.symm.trans hfound)
        rw [hobjects]
        rcases hobeys _ rfl with hcall' | ⟨-, hfree⟩
        · exact backend.cleared _ _ _ hcall'
        · exact hfree

/-- A client that raises, over one object that has a hold. -/
def refusing_client : S3Client Unit where
  put_object_legal_hold _ _ _ := raise (.raised "ClientError" "AccessDenied")
  legal_hold _ _ _ := some "ON"
  answered _ _ _ _ h := by cases h

def report_uri : String := "object://s3/bea/tenants/tenant/reports/ev_1/report.json"

/-- An active hold of a report in S3. -/
def report_hold : Hold :=
  new_hold ⟨"tenant", "report", "ev_1", "litigation", "officer", "trace"⟩ "1" "2026" (some report_uri)

def held_report : System FileText :=
  { System.empty with legal_hold_objects := Table.empty.put report_hold }

def approved_release : ReleaseArgs := ⟨"hold_1", "tenant", "closed", "first", "second", "trace"⟩

/-- The client of S3 raises: the release returns, and the blob has its hold.
The URI is not of the local storage: the release raises, and the record is
released. -/
theorem failed_call_is_not_undone :
    ¬AllOrNothing plain_settings (s3_backend refusing_client) approved_release ⟨held_report, ()⟩ ∧
      ¬AllOrNothing plain_settings (local_backend plain_settings.storage) approved_release
        ⟨held_report, Dict.empty⟩ := by
  constructor
  · intro h
    have hreturns : ((hold_backends.release_legal_hold plain_settings (s3_backend refusing_client)
        approved_release).result ⟨held_report, ()⟩).isOk = true := by decide +kernel
    have hcheck : (check_release held_report approved_release).toOption = some report_hold := by
      decide +kernel
    have hparsed : (parse_storage_uri report_uri).isOk = true := by decide +kernel
    rcases hresult : (hold_backends.release_legal_hold plain_settings (s3_backend refusing_client)
        approved_release).result ⟨held_report, ()⟩ with e | hold
    · rw [hresult] at hreturns
      cases hreturns
    · refine h.freed hold hresult report_hold (ok_of_toOption hcheck) report_uri rfl ?_
      rcases hparse : parse_storage_uri report_uri with e | parsed
      · rw [hparse] at hparsed
        cases hparsed
      · exact ⟨parsed, hparse, rfl⟩
  · intro h
    have hraises : ((hold_backends.release_legal_hold plain_settings
        (local_backend plain_settings.storage) approved_release).result
          ⟨held_report, Dict.empty⟩).isOk = false := by decide +kernel
    have hstatus : ((((hold_backends.release_legal_hold plain_settings
        (local_backend plain_settings.storage) approved_release).final
          ⟨held_report, Dict.empty⟩).system.legal_hold_objects.get? "hold_1").map
            fun hold => hold.status) = some "released" := by decide +kernel
    have hbefore : (held_report.legal_hold_objects.get? "hold_1").map (fun hold => hold.status) =
        some "active" := by decide +kernel
    rcases hresult : (hold_backends.release_legal_hold plain_settings
        (local_backend plain_settings.storage) approved_release).result
          ⟨held_report, Dict.empty⟩ with e | hold
    · have hkept := congrArg (Option.map fun hold => hold.status) (h.kept e hresult)
      exact absurd (hstatus.symm.trans (hkept.trans hbefore)) (by decide)
    · rw [hresult] at hraises
      cases hraises

/-! ## When the storage obeys -/

/-- The local storage obeys unless it raises. -/
theorem local_obeys_iff (settings : Settings β) (storage : LocalObjectStorage β)
    (b : Backed β (FileTree β)) (storage_uri : String) :
    Obeys settings (local_backend storage) b storage_uri ↔ ∃ answer,
      (object_storage.release_legal_hold storage (call_time settings b) storage_uri).result b.objects =
        .ok answer := by
  constructor
  · rintro (h | ⟨h, -⟩)
    · exact ⟨true, h⟩
    · exact ⟨false, h⟩
  · rintro ⟨answer, h⟩
    cases answer with
    | true => exact .inl h
    | false => exact .inr ⟨h, local_cleared⟩

/-- S3 obeys when the client does, or when it raises over an object that has
no hold. -/
theorem s3_obeys_iff (settings : Settings β) (client : S3Client σ) (b : Backed β σ)
    {storage_uri : String} {parsed : ParsedUri}
    (hparsed : parse_storage_uri storage_uri = .ok parsed) :
    Obeys settings (s3_backend client) b storage_uri ↔
      (client.put_object_legal_hold parsed.bucket parsed.key "OFF").result b.objects = .ok () ∨
        client.legal_hold parsed.bucket parsed.key
          ((client.put_object_legal_hold parsed.bucket parsed.key "OFF").final b.objects) ≠
            some "ON" := by
  obtain ⟨hresult, hfinal⟩ := s3_release.spec client b.objects hparsed
  have hheld : ∀ objects, S3Held client storage_uri objects ↔
      client.legal_hold parsed.bucket parsed.key objects = some "ON" := by
    intro objects
    constructor
    · rintro ⟨parsed', hparsed', hon⟩
      cases Except.ok.inj (hparsed.symm.trans hparsed')
      exact hon
    · intro hon
      exact ⟨parsed, hparsed, hon⟩
  show (s3_release_legal_hold client storage_uri).result b.objects = .ok true ∨
    (s3_release_legal_hold client storage_uri).result b.objects = .ok false ∧
      ¬S3Held client storage_uri ((s3_release_legal_hold client storage_uri).final b.objects) ↔ _
  rw [hresult, hfinal, hheld]
  rcases hput : (client.put_object_legal_hold parsed.bucket parsed.key "OFF").result b.objects with e | _
  · simp [Except.isOk, Except.toBool]
  · simp [Except.isOk, Except.toBool]

end bid_evaluation.release_laws
