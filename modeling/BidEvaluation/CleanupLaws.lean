-- The law of cleanups: what a cleanup deletes was not protected, by a record,
-- by its flag or by its retention, and a cleanup that raises has changed
-- nothing but the log.
import BidEvaluation.HoldShapes

open dict_lib file_tree stepwise lockstep bid_evaluation.values bid_evaluation.object_storage
  bid_evaluation.object_frames bid_evaluation.worm_laws bid_evaluation.protection_laws
  bid_evaluation.hold_store bid_evaluation.hold_steps bid_evaluation.hold_shapes
open bid_evaluation.endings (AnyStep)

namespace bid_evaluation.cleanup_laws

variable {β : Type} {settings : Settings β} {s t : System β}

/-- The blob of the object has no protection of any kind when a cleanup that
leads from `s` to `t` looks. -/
structure Unprotected (settings : Settings β) (s t : System β)
    (tenant_id object_type object_id storage_uri : String) : Prop where
  hold : find_active_legal_hold s tenant_id object_type object_id = none
  flag : (is_legal_hold_active settings.storage storage_uri).result s.files = .ok false
  retention : ∃ now, ReadBetween settings s t now ∧
    (is_retention_active settings.storage storage_uri now).result s.files = .ok false

/-- What can be read at an address is read there after a write elsewhere. -/
theorem stored_of_spares {storage : LocalObjectStorage β} {storage_uri : String} {content : β}
    {files files' : FileTree β} {S : Set Place} (h : Stored storage storage_uri content files)
    (hspares : Spares S files files')
    (hout : ∀ p ∈ object_places storage storage_uri, p ∉ S) :
    Stored storage storage_uri content files' := by
  rcases hpath : path_for_uri storage storage_uri with e | path
  · unfold Stored get_object at h
    rw [hpath] at h
    cases h
  · have hthere := Option.isSome_iff_exists.2 ⟨_, ((stored_iff hpath).1 h).2⟩
    exact (looks_get_object.same _ _ (same_of_spares hpath hthere hspares hout)).trans h

/-- A cleanup as a step of the machine. -/
theorem cleaned (settings : Settings β) (s : System β) (modes : Modes) (args : CleanupArgs) :
    Cleaned (settings.under modes) args s
      ((hold_store.machine settings).step s ⟨modes, .cleanup args⟩).1
      (raises ((hold_store.machine settings).step s ⟨modes, .cleanup args⟩).2) := by
  have hspec := (execute_storage_cleanup.spec (settings.under modes) args s).2
  have hfinal : ((hold_store.machine settings).step s ⟨modes, .cleanup args⟩).1 =
      (execute_storage_cleanup (settings.under modes) args).final s := final_bind_pure _
  have hraises : raises ((hold_store.machine settings).step s ⟨modes, .cleanup args⟩).2 =
      raises ((execute_storage_cleanup (settings.under modes) args).result s) := by
    show raises ((execute_storage_cleanup (settings.under modes) args >>= fun _ => pure ()).result s) = _
    rcases hresult : (execute_storage_cleanup (settings.under modes) args).result s with e | deleted
    · rw [result_bind_error hresult]
      rfl
    · rw [result_bind hresult]
      rfl
  rw [hfinal, hraises]
  exact hspec

/-- The files are as they were, or one blob without protection is deleted. -/
theorem deleted_unprotected (hshaped : Shaped settings s) {args : CleanupArgs} {raised : Bool}
    (h : Cleaned settings args s t raised) :
    t.files = s.files ∨ ∃ storage_uri,
      BlobOf settings s args.tenant_id args.object_type args.object_id storage_uri ∧
        Unprotected settings s t args.tenant_id args.object_type args.object_id storage_uri ∧
        Spares {p | p ∈ object_places settings.storage storage_uri} s.files t.files := by
  rcases h.files with hquiet | ⟨storage_uri, now, hfree, hresolve, hread, hdeleted⟩
  · exact .inl hquiet
  by_cases hallowed : DeleteAllowed settings.storage now storage_uri s.files
  · refine .inr ⟨storage_uri, blob_of_resolved hshaped hresolve,
      ⟨hfree, hallowed.1, now, hread, hallowed.2⟩, ?_⟩
    rw [hdeleted]
    exact delete_object_spares.final Spares.refl (fun _ _ _ => Spares.trans) s.files
  · exact .inl (hdeleted.trans (delete_object_blocked hallowed))

/-- In every state, a blob whose bytes a cleanup loses belongs to an object
with no active hold, its flag is not set, and its retention is over. No other
file changes than those of one such blob. A cleanup that raises leaves all as
it was, but for one row of the log at most. -/
theorem cleanup_spares_evidence (hhex : HexSettings settings) (requests : List (Request β))
    (modes : Modes) (args : CleanupArgs) :
    let storage := (settings.under modes).storage
    let s := (hold_store.machine settings).after requests
    let t := (hold_store.machine settings).after (requests ++ [⟨modes, .cleanup args⟩])
    (∀ tenant_id object_type object_id storage_uri content,
      BlobOf settings s tenant_id object_type object_id storage_uri →
        Stored storage storage_uri content s.files → ¬ Stored storage storage_uri content t.files →
          Unprotected (settings.under modes) s t tenant_id object_type object_id storage_uri) ∧
    (∀ p, t.files.get? p ≠ s.files.get? p → ∃ storage_uri, p ∈ object_places storage storage_uri ∧
      BlobOf settings s args.tenant_id args.object_type args.object_id storage_uri ∧
        Unprotected (settings.under modes) s t args.tenant_id args.object_type args.object_id
          storage_uri) ∧
    (raises ((hold_store.machine settings).answer requests ⟨modes, .cleanup args⟩) = true →
      Same s t ∧ t.files = s.files ∧ LogsOnce s t) := by
  have hunder : HexSettings (settings.under modes) := ⟨hhex.uuid, hhex.digest⟩
  have hshaped := (shaped_under modes).2 (shaped_after hhex requests)
  dsimp only
  rw [Machine.after_concat, Machine.answer]
  generalize (hold_store.machine settings).after requests = s at hshaped ⊢
  have hclean := cleaned settings s modes args
  generalize (hold_store.machine settings).step s ⟨modes, .cleanup args⟩ = stepped at hclean ⊢
  have hdeleted := deleted_unprotected hshaped hclean
  refine ⟨?_, ?_, fun hraises => ⟨hclean.same, hclean.quiet hraises⟩⟩
  · intro tenant_id object_type object_id storage_uri content hblob hstored hlost
    replace hblob := (blob_under modes).2 hblob
    generalize settings.under modes = settings' at *
    rcases hdeleted with hquiet | ⟨uri, hresolved, hfree, hspares⟩
    · rw [hquiet] at hlost
      exact absurd hstored hlost
    -- bytes are lost at the places of the resolved blob only, so it is that one
    by_cases hapart : ∀ p ∈ object_places settings'.storage storage_uri,
        p ∉ object_places settings'.storage uri
    · exact absurd (stored_of_spares hstored hspares hapart) hlost
    · push Not at hapart
      obtain ⟨p, hp, hp'⟩ := hapart
      obtain ⟨rfl, rfl, rfl, rfl⟩ := blob_unique hunder hshaped hblob hresolved hp hp'
      exact hfree
  · intro p hchanged
    rcases hdeleted with hquiet | ⟨uri, hresolved, hfree, hspares⟩
    · rw [hquiet] at hchanged
      exact absurd rfl hchanged
    · refine ⟨uri, ?_, (blob_under modes).1 hresolved, hfree⟩
      by_contra hout
      exact hchanged (hspares.same p hout)

/-- A document that is cleaned up is gone, and it was not protected. -/
theorem cleaned_bid_was_free :
    let machine := hold_store.machine plain_settings
    Unprotected (plain_settings.under loose) (machine.after [⟨loose, .upload bid_upload⟩])
      (machine.after [⟨loose, .upload bid_upload⟩,
        ⟨loose, .cleanup ⟨"tenant", "document", "doc_", "done", ""⟩⟩])
      "tenant" "document" "doc_"
      "object://local/bea/tenants/tenant/documents/doc_/raw/bid.pdf" := by
  have hdocument : ((((hold_store.machine plain_settings).after [⟨loose, .upload bid_upload⟩]).documents.get?
      "doc_").map fun document => (document.tenant_id, document.storage_uri)) =
        some ("tenant", some "object://local/bea/tenants/tenant/documents/doc_/raw/bid.pdf") := by
    decide +kernel
  obtain ⟨document, hget, hfields⟩ := Option.map_eq_some_iff.1 hdocument
  have htenant := congrArg Prod.fst hfields
  have huri := congrArg Prod.snd hfields
  refine (cleanup_spares_evidence plain_hex [_] loose ⟨"tenant", "document", "doc_", "done", ""⟩).1
    _ _ _ _ (.text "bid") (.inl ⟨rfl, document, hget, htenant, huri⟩) ?_ fun hstored => ?_
  · exact ok_of_text (by decide +kernel)
  · have hgone : text_of ((get_object (plain_settings.under loose).storage
        "object://local/bea/tenants/tenant/documents/doc_/raw/bid.pdf").result
          ((hold_store.machine plain_settings).after [⟨loose, .upload bid_upload⟩,
            ⟨loose, .cleanup ⟨"tenant", "document", "doc_", "done", ""⟩⟩]).files) = none := by
      decide +kernel
    have hthere := (congrArg text_of hstored).symm.trans hgone
    cases hthere

end bid_evaluation.cleanup_laws
