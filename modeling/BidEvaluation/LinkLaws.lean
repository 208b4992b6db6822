-- No record of the store points to a record that is not there, and no
-- tenant has two documents of the same content, in every state that is
-- ever written.
import BidEvaluation.LinkSteps

open dict_lib stepwise bid_evaluation.values bid_evaluation.core bid_evaluation.store_ops
  bid_evaluation.store_workflow bid_evaluation.store_admin bid_evaluation.store_parse
  bid_evaluation.store_eval bid_evaluation.job_run bid_evaluation.operations
  bid_evaluation.job_steps bid_evaluation.run_steps bid_evaluation.op_steps
  bid_evaluation.job_laws bid_evaluation.writes bid_evaluation.delivery

namespace bid_evaluation.links

variable {env : Env} {w w' : World} {op : Op}

/-- What the records of a store point to is in the store. -/
structure Linked (s : Store) : Prop where
  events : ∀ id event, s.domain_events_outbox.get? id = some event →
    ∃ job, s.jobs.get? event.aggregate_id = some job ∧ job.tenant_id = event.tenant_id
  chunks : ∀ id, (s.document_chunks.get? id).isSome → (s.documents.get? id).isSome
  manifests : ∀ id manifest, s.parse_manifests.get? id = some manifest → Founded s manifest
  first : ∀ id document id' document', s.documents.get? id = some document →
    s.documents.get? id' = some document' → document.tenant_id = document'.tenant_id →
    document.file_sha256 = document'.file_sha256 → document.file_sha256 ≠ "" → id = id'

theorem linked_empty : Linked Store.empty :=
  ⟨fun _ _ h => by simp [Store.empty] at h, fun _ h => by simp [Store.empty] at h,
    fun _ _ h => by simp [Store.empty] at h, fun _ _ _ _ h => by simp [Store.empty] at h⟩

/-! ## One write -/

theorem founded_step {guard : World → Job → Prop} {manifest : ParseManifest}
    (hop : OpStep env guard op w w') (hstays : Stays w w') (h : Founded w.store manifest) :
    Founded w'.store manifest := by
  obtain ⟨job, hjob, htype, hresource, htenant⟩ := h.job
  obtain ⟨document, hdocument, howner⟩ := h.document
  have hkept : job_laws.Kept manifest.job_id job w := ⟨job, hjob, rfl, rfl, rfl⟩
  obtain ⟨job', hjob', hwork⟩ := kept_step hop hkept
  obtain ⟨document', hdocument', hsame⟩ := hstays.documents _ document hdocument
  exact ⟨⟨job', hjob', hwork.job_type.trans htype, hwork.resource_id.trans hresource,
    hwork.tenant_id.trans htenant⟩, document', hdocument', hsame.tenant_id.trans howner⟩

/-- A manifest that is noted again is of the same job and document. -/
theorem Founded.same {s : Store} {old new : ParseManifest} (h : Founded s old)
    (hsame : SameParse old new) : Founded s new := by
  obtain ⟨hjob, hdocument⟩ := h
  constructor
  · rw [hsame.job_id, hsame.document_id, hsame.tenant_id]
    exact hjob
  · rw [hsame.document_id, hsame.tenant_id]
    exact hdocument

theorem chunks_step (h : LinkStep env w w') (hw : Linked w.store) :
    ∀ id, (w'.store.document_chunks.get? id).isSome → (w'.store.documents.get? id).isSome := by
  have hstays := stays_step h
  -- Chunks that were there before are those of a document that stays.
  have hold : ∀ id, (w.store.document_chunks.get? id).isSome →
      (w'.store.documents.get? id).isSome := by
    intro id hid
    obtain ⟨document, hdocument⟩ := Option.isSome_iff_exists.1 (hw.chunks id hid)
    obtain ⟨document', hdocument', -⟩ := hstays.documents id document hdocument
    exact Option.isSome_iff_exists.2 ⟨document', hdocument'⟩
  have hput : ∀ document : Document, w'.store.documents = w.store.documents.put document →
      (w'.store.documents.get? document.document_id).isSome := by
    intro document hd
    rw [hd, Table.get?_put_self]
    rfl
  intro id hid
  cases h with
  | aside hd hc hm =>
    rw [hc] at hid
    exact hold id hid
  | filed document hdrawn hnew hfirst hd hc hm =>
    rcases hc id hid with hthere | rfl
    · exact hold id hthere
    · exact hput document hd
  | remarked old new hstored hsame hd hc hm =>
    rcases hc id hid with hthere | rfl
    · exact hold id hthere
    · rw [← hsame.document_id]
      exact hput new hd
  | chunked document hstored hd hc hm =>
    rcases hc id hid with hthere | rfl
    · exact hold id hthere
    · rw [hd, hstored]
      rfl
  | planned manifest hnew hfounded hd hc hm =>
    rw [hc] at hid
    exact hold id hid
  | noted old new hstored hsame hd hc hm =>
    rw [hc] at hid
    exact hold id hid

theorem manifests_step (hop : OpStep env anyJob op w w') (h : LinkStep env w w')
    (hw : Linked w.store) :
    ∀ id manifest, w'.store.parse_manifests.get? id = some manifest →
      Founded w'.store manifest := by
  have hstep : ∀ manifest, Founded w.store manifest → Founded w'.store manifest := fun _ hf =>
    founded_step hop (stays_step h) hf
  have hsame : w'.store.parse_manifests = w.store.parse_manifests → ∀ id manifest,
      w'.store.parse_manifests.get? id = some manifest → Founded w'.store manifest := by
    intro hm id manifest hmanifest
    exact hstep manifest (hw.manifests id manifest (hm ▸ hmanifest))
  have hput : ∀ new, Founded w.store new →
      w'.store.parse_manifests = w.store.parse_manifests.put new → ∀ id manifest,
      w'.store.parse_manifests.get? id = some manifest → Founded w'.store manifest := by
    intro new hnew hm id manifest hmanifest
    rw [hm, Table.get?_put] at hmanifest
    split at hmanifest
    · cases hmanifest
      exact hstep new hnew
    · exact hstep manifest (hw.manifests id manifest hmanifest)
  cases h with
  | aside hd hc hm => exact hsame hm
  | filed document hdrawn hnew hfirst hd hc hm => exact hsame hm
  | remarked old new hstored hkeeps hd hc hm => exact hsame hm
  | chunked document hstored hd hc hm => exact hsame hm
  | planned manifest hnew hfounded hd hc hm => exact hput manifest hfounded hm
  | noted old new hstored hkeeps hd hc hm =>
    exact hput new ((hw.manifests _ old hstored).same hkeeps) hm

theorem first_step (h : LinkStep env w w') (hw : Linked w.store) :
    ∀ id document id' document', w'.store.documents.get? id = some document →
      w'.store.documents.get? id' = some document' → document.tenant_id = document'.tenant_id →
      document.file_sha256 = document'.file_sha256 → document.file_sha256 ≠ "" → id = id' := by
  have hsame : w'.store.documents = w.store.documents → ∀ id document id' document',
      w'.store.documents.get? id = some document → w'.store.documents.get? id' = some document' →
      document.tenant_id = document'.tenant_id → document.file_sha256 = document'.file_sha256 →
      document.file_sha256 ≠ "" → id = id' := by
    intro hd
    rw [hd]
    exact hw.first
  cases h with
  | aside hd hc hm => exact hsame hd
  | chunked document hstored hd hc hm => exact hsame hd
  | planned manifest hnew hfounded hd hc hm => exact hsame hd
  | noted old new hstored hkeeps hd hc hm => exact hsame hd
  | remarked old new hstored hkeeps hd hc hm =>
    -- Each document after the write is one before it, under the same name.
    have hback : ∀ id document, w'.store.documents.get? id = some document →
        ∃ document₀, w.store.documents.get? id = some document₀ ∧ SameFile document₀ document := by
      intro id document hdocument
      rw [hd, Table.get?_put] at hdocument
      split at hdocument
      · rename_i hid
        cases hdocument
        exact ⟨old, by rw [hid, hkeeps.document_id, hstored], hkeeps⟩
      · exact ⟨document, hdocument, SameFile.refl document⟩
    intro id document id' document' hdocument hdocument' htenant hsum hne
    obtain ⟨document₀, hget, hfile⟩ := hback id document hdocument
    obtain ⟨document₀', hget', hfile'⟩ := hback id' document' hdocument'
    refine hw.first id document₀ id' document₀' hget hget' ?_ ?_ ?_
    · rw [← hfile.tenant_id, ← hfile'.tenant_id, htenant]
    · rw [← hfile.file_sha256, ← hfile'.file_sha256, hsum]
    · rw [← hfile.file_sha256]
      exact hne
  | filed document hdrawn hnew hfirst hd hc hm =>
    have hother : ∀ id other, w.store.documents.get? id = some other →
        other.tenant_id = document.tenant_id → document.file_sha256 ≠ "" →
        other.file_sha256 ≠ document.file_sha256 := by
      intro id other hget htenant hne
      refine hfirst hne other ?_ htenant
      rw [Table.mem_values_iff, w.store.documents.key_of_get? hget]
      exact hget
    intro id a id' b ha hb htenant hsum hne
    rw [hd, Table.get?_put] at ha hb
    split at ha <;> split at hb
    · rename_i hid hid'
      rw [hid, hid']
    · cases ha
      exact absurd hsum.symm (hother id' b hb htenant.symm hne)
    · cases hb
      exact absurd hsum (hother id a ha htenant (hsum ▸ hne))
    · exact hw.first id a id' b ha hb htenant hsum hne

/-- Whatever is posted is posted about a job that is there. -/
theorem events_step (hop : OpStep env anyJob op w w') (h : PostStep env w w')
    (hw : Linked w.store) :
    ∀ id event, w'.store.domain_events_outbox.get? id = some event → ∃ job,
      w'.store.jobs.get? event.aggregate_id = some job ∧ job.tenant_id = event.tenant_id := by
  have hkept : ∀ event : OutboxEvent, (∃ job, w.store.jobs.get? event.aggregate_id = some job ∧
      job.tenant_id = event.tenant_id) → ∃ job, w'.store.jobs.get? event.aggregate_id = some job ∧
      job.tenant_id = event.tenant_id := by
    rintro event ⟨job, hjob, htenant⟩
    have hkept : job_laws.Kept event.aggregate_id job w := ⟨job, hjob, rfl, rfl, rfl⟩
    obtain ⟨job', hjob', hwork⟩ := kept_step hop hkept
    exact ⟨job', hjob', hwork.tenant_id.trans htenant⟩
  intro id event hevent
  cases h with
  | same hsame => exact hkept event (hw.events id event (hsame ▸ hevent))
  | posted new hpending hnew hannounced hjobs hevents =>
    rw [hevents, Table.get?_put] at hevent
    split at hevent
    · cases hevent
      exact hkept _ hannounced.job
    · exact hkept event (hw.events id event hevent)

/-- One write of an operation, seen from three sides. -/
structure Seen (env : Env) (w w' : World) : Prop where
  op : ∃ op, OpStep env anyJob op w w'
  link : LinkStep env w w'
  post : PostStep env w w'
  write : ∃ kind, Write kind w w'

theorem linked_step (h : Seen env w w') (hw : Linked w.store) : Linked w'.store := by
  obtain ⟨op, hop⟩ := h.op
  exact ⟨events_step hop h.post hw, chunks_step h.link hw, manifests_step hop h.link hw,
    first_step h.link hw⟩

theorem Linked.ready (h : Linked w.store) (hn : Named env w) : Ready env w := by
  refine ⟨hn.jobs, fun id manifest hmanifest => ?_⟩
  obtain ⟨job, hjob, -⟩ := (h.manifests id manifest hmanifest).job
  rw [← w.store.parse_manifests.key_of_get? hmanifest, hjob]
  rfl

/-- Every write of an operation, seen from three sides. -/
theorem seen_op (hn : Named env w) (hlinked : Linked w.store) (hdrawn : DocumentsDrawn env w)
    (op : Op) : Steps (Seen env) w ((op.act env).written w) := by
  have hop := steps_of_op any_new any_free hn op (permits_any op)
  have hlink := (links_op (hlinked.ready hn) hdrawn op).1
  have hall := (hop.and hlink).and ((posts_op hn.outbox op).1.and (writes_op env op w))
  refine hall.mono ?_
  rintro a b ⟨⟨hop, hlink⟩, hpost, kind, -, hwrite⟩
  exact ⟨⟨op, hop⟩, hlink, hpost, kind, hwrite⟩

theorem documents_drawn_step (h : LinkStep env w w') (hdraws : w.draws ≤ w'.draws)
    (hw : DocumentsDrawn env w) : DocumentsDrawn env w' := by
  have hput : ∀ new : Document, DrawnBefore env "doc_" w.draws new.document_id →
      w'.store.documents = w.store.documents.put new → DocumentsDrawn env w' := by
    intro new hnew hd id document hdocument
    rw [hd] at hdocument
    exact (named_of_put hw hnew id document hdocument).mono hdraws
  have hsame : w'.store.documents = w.store.documents → DocumentsDrawn env w' := by
    intro hd id document hdocument
    exact (hw id document (hd ▸ hdocument)).mono hdraws
  cases h with
  | aside hd hc hm => exact hsame hd
  | chunked document hstored hd hc hm => exact hsame hd
  | planned manifest hnew hfounded hd hc hm => exact hsame hd
  | noted old new hstored hkeeps hd hc hm => exact hsame hd
  | remarked old new hstored hkeeps hd hc hm =>
    exact hput new (hkeeps.document_id ▸ hw _ old hstored) hd
  | filed document hdrawn hnew hfirst hd hc hm => exact hput document hdrawn hd

end bid_evaluation.links
