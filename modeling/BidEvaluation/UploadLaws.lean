-- What an upload answers: the document and the job that the caller is told
-- of. A file that the tenant uploaded before gets the earlier document and no
-- job.
import BidEvaluation.Endings

open dict_lib stepwise bid_evaluation.values bid_evaluation.core bid_evaluation.store_ops
  bid_evaluation.store_admin bid_evaluation.store_parse bid_evaluation.operations
  bid_evaluation.frames bid_evaluation.job_steps bid_evaluation.run_steps
  bid_evaluation.op_steps bid_evaluation.job_laws bid_evaluation.endings

namespace bid_evaluation.upload_laws

variable {env : Env} {w w' : World} {payload : UploadPayload}

/-! ## The right answer -/

/-- The document is stored for the caller, under the names of the request. -/
def NamesDocument (payload : UploadPayload) (w : World) (document_id : String) : Prop :=
  ∃ document, w.store.documents.get? document_id = some document ∧
    document.tenant_id = payload.tenant_id ∧ document.project_id = payload.project_id ∧
    document.supplier_id = payload.supplier_id ∧ document.doc_type = payload.doc_type

/-- The job is a stored parse job of the tenant, for the document. -/
def NamesJob (w : World) (tenant_id document_id job_id : String) : Prop :=
  ∃ job, w.store.jobs.get? job_id = some job ∧ job.job_type = .parse ∧
    job.tenant_id = tenant_id ∧ job.resource_type = "document" ∧ job.resource_id = document_id

structure NamesRight (payload : UploadPayload) (w : World) (response : String × Option String) :
    Prop where
  document : NamesDocument payload w response.1
  job : ∃ job_id, response.2 = some job_id ∧ NamesJob w payload.tenant_id response.1 job_id

/-- Every document has a name that an upload gave it. -/
def DocumentsNamed (w : World) : Prop :=
  ∀ id document, w.store.documents.get? id = some document → ∃ hex, id = "doc_" ++ hex

theorem DocumentsNamed.of_same (h : DocumentsNamed w)
    (hsame : w'.store.documents = w.store.documents) : DocumentsNamed w' := by
  intro id document hget
  rw [hsame] at hget
  exact h id document hget

theorem DocumentsNamed.frame {K : List Part} (h : DocumentsNamed w) (hf : Frame K w w')
    (hK : .documents ∉ K) : DocumentsNamed w' :=
  h.of_same (hf.same .documents hK)

/-- A document keeps its name, and a new one has a drawn name. -/
theorem DocumentsNamed.put {document : Document} (h : DocumentsNamed w)
    (hid : ∃ hex, document.document_id = "doc_" ++ hex)
    (hput : w'.store.documents = w.store.documents.put document) : DocumentsNamed w' := by
  intro id found hget
  rw [hput, Table.get?_put] at hget
  by_cases hkey : id = document.document_id
  · rw [hkey]
    exact hid
  · rw [if_neg hkey] at hget
    exact h id found hget

theorem NamesJob.of_same {tenant_id document_id job_id : String}
    (h : NamesJob w tenant_id document_id job_id) (hsame : w'.store.jobs = w.store.jobs) :
    NamesJob w' tenant_id document_id job_id := by
  unfold NamesJob
  rw [hsame]
  exact h

/-- A job is never stored under the name of a document. -/
theorem no_job_of_document (hn : Named env w) (hex : String) :
    w.store.jobs.get? ("doc_" ++ hex) = none := by
  by_contra hne
  obtain ⟨job, hjob⟩ := Option.ne_none_iff_exists'.1 hne
  obtain ⟨n, -, hname⟩ := hn.jobs _ job hjob
  have hletters := congrArg (fun name : String => name.toList.head?) hname
  simp [String.toList_append] at hletters

/-! ## The job of a new document -/

theorem persist_document.spec (document : Document) (w : World) :
    Meets AnyStep (persist_document document) w (fun _ w' =>
      w'.store.documents = w.store.documents.put document ∧ w'.store.jobs = w.store.jobs) := by
  simp only [persist_document, update, meets_write, any_step, and_self]

theorem persist_job.spec (job : Job) (w : World) :
    Meets AnyStep (persist_job job) w (fun r w' => r = .ok job ∧
      w'.store.jobs = w.store.jobs.put job ∧ w'.store.documents = w.store.documents) := by
  simp only [persist_job, update, meets_bind, meets_write, then_ok, meets_pure, any_step, and_self]

theorem names_new_job {job : Job} (hput : w'.store.jobs = w.store.jobs.put job)
    (htype : job.job_type = .parse) (hresource : job.resource_type = "document") :
    NamesJob w' job.tenant_id job.resource_id job.job_id := by
  refine ⟨job, ?_, htype, rfl, hresource, rfl⟩
  rw [hput]
  exact Table.get?_put_self _ _

/-- The parse job is for the document, and the document keeps all but its
status. -/
theorem create_parse_job.answers {document : Document} {document_id : String}
    (trace_id tenant_id : String) (hnamed : DocumentsNamed w)
    (hstored : w.store.documents.get? document_id = some document) :
    Meets AnyStep (create_parse_job env document_id trace_id tenant_id) w (fun r w' =>
      DocumentsNamed w' ∧ OnReturn (fun job_id t =>
        t.store.documents.get? document_id = some { document with status := "parse_queued" } ∧
          NamesJob t tenant_id document_id job_id) r w') := by
  have hid : document.document_id = document_id := Table.key_of_get? _ hstored
  unfold create_parse_job
  refine saved.spec ?_ ?_
  · unfold get_document_for_tenant assert_tenant_scope
    rw [meets_bind, meets_bind, meets_read, then_ok, hstored]
    dsimp only
    rw [meets_bind, meets_ite]
    constructor
    · intro _
      simp only [raise_api, meets_raise, then_error]
      exact ⟨hnamed, trivial⟩
    · intro _
      rw [meets_pure, then_ok, meets_pure, then_ok]
      refine past_return (K := []) (touches_uuid4 env) (returns_uuid4 env) fun hex t hf => ?_
      refine past_return (K := []) (touches_new_thread_id env "parse")
        (returns_new_thread_id env "parse") fun thread_id t₁ hf₁ => ?_
      have hnamed₁ : DocumentsNamed t₁ := hnamed.frame (hf.trans hf₁) (by simp)
      refine (persist_job.spec _ t₁).bind ?_ (by rintro e t' ⟨he, -⟩; cases he)
      rintro _ t₂ ⟨⟨⟩, hjobs, hsame⟩
      have hjob := names_new_job hjobs rfl rfl
      have hnamed₂ : DocumentsNamed t₂ := hnamed₁.of_same hsame
      refine past_return (K := []) (touches_new_manifest env _ _ _)
        (returns_new_manifest env _ _ _) fun manifest t₃ hf₃ => ?_
      refine past_return (K := []) (touches_persist_manifest _) (returns_write _)
        fun _ t₄ hf₄ => ?_
      have hf₄ := hf₃.trans hf₄
      have hnamed₄ : DocumentsNamed t₄ := hnamed₂.frame hf₄ (by simp)
      refine (persist_document.spec _ t₄).bind ?_ ?_
      · intro _ t₅ h₅
        have hnamed₅ : DocumentsNamed t₅ := hnamed₄.put (hid ▸ hnamed _ _ hstored) h₅.1
        refine past_parts (K := [.outbox]) (touches_outbox env (by simp) _ _ _ _ _) ?_ ?_
        · intro event t₆ hf₆
          rw [meets_pure]
          refine ⟨hnamed₅.frame hf₆ (by simp), ?_, ?_⟩
          · rw [show t₆.store.documents = t₅.store.documents from hf₆.same .documents (by simp),
              h₅.1, ← hid]
            exact Table.get?_put_self _ _
          · refine hjob.of_same ?_
            rw [show t₆.store.jobs = t₅.store.jobs from hf₆.same .jobs (by simp), h₅.2]
            exact hf₄.same .jobs (by simp)
        · intro e t₆ hf₆
          exact ⟨hnamed₅.frame hf₆ (by simp), trivial⟩
      · intro e t₅ h₅
        exact ⟨hnamed₄.put (hid ▸ hnamed _ _ hstored) h₅.1, trivial⟩
  · intro job_id t t' h hstore _
    obtain ⟨hnamed', hdocument, hjob⟩ := h
    refine ⟨hnamed'.of_same (by rw [hstore]), ?_, hjob.of_same (by rw [hstore])⟩
    rw [hstore]
    exact hdocument

/-! ## The answer -/

/-- A new upload that returns names its own document and its own job. -/
theorem create_upload_job.new (has_file : Bool) (hnamed : DocumentsNamed w)
    (hnew : duplicate_of w.store payload = none) :
    Meets AnyStep (create_upload_job env payload has_file) w (fun r w' =>
      DocumentsNamed w' ∧ OnReturn (fun response t => NamesRight payload t response) r w') := by
  unfold create_upload_job
  refine saved.spec ?_ ?_
  · rw [meets_bind, meets_read, then_ok, hnew]
    dsimp only
    refine past_return (K := []) (touches_uuid4 env) (returns_uuid4 env) fun hex t hf => ?_
    refine past_parts (K := []) (touches_put_upload env _ _ _) ?_ ?_
    · intro uri t₁ hf₁
      have hnamed₁ : DocumentsNamed t₁ := hnamed.frame (hf.trans hf₁) (by simp)
      refine (persist_document.spec _ t₁).bind ?_ ?_
      · intro _ t₂ h₂
        have hnamed₂ : DocumentsNamed t₂ := hnamed₁.put ⟨hex, rfl⟩ h₂.1
        refine past_parts (K := [.chunks]) (touches_persist_chunks env (by simp) _ _ _) ?_ ?_
        · intro _ t₃ hf₃
          have hnamed₃ : DocumentsNamed t₃ := hnamed₂.frame hf₃ (by simp)
          have hsame : t₃.store.documents = t₂.store.documents := hf₃.same .documents (by simp)
          have hstored := congrArg (fun documents => documents.get? ("doc_" ++ hex))
            (hsame.trans h₂.1)
          refine (create_parse_job.answers _ _ hnamed₃
            (hstored.trans (Table.get?_put_self _ _))).bind ?_ ?_
          · intro job_id t₄ h₄
            rw [meets_pure]
            obtain ⟨hnamed₄, hdocument, hjob⟩ := h₄
            exact ⟨hnamed₄, ⟨_, hdocument, rfl, rfl, rfl, rfl⟩, job_id, rfl, hjob⟩
          · intro e t₄ h₄
            exact ⟨h₄.1, trivial⟩
        · intro e t₃ hf₃
          exact ⟨hnamed₂.frame hf₃ (by simp), trivial⟩
      · intro e t₂ h₂
        exact ⟨hnamed₁.put ⟨hex, rfl⟩ h₂.1, trivial⟩
    · intro e t₁ hf₁
      exact ⟨hnamed.frame (hf.trans hf₁) (by simp), trivial⟩
  · intro response t t' h hstore _
    obtain ⟨hnamed', ⟨document, hdocument, hnames⟩, job_id, hid, hjob⟩ := h
    refine ⟨hnamed'.of_same (by rw [hstore]), ⟨document, ?_, hnames⟩, job_id, hid,
      hjob.of_same (by rw [hstore])⟩
    rw [hstore]
    exact hdocument

/-- A file that is there already is answered with the earlier document and
no job. -/
theorem create_upload_job.known {existing : Document} (has_file : Bool) (hn : Named env w)
    (hnamed : DocumentsNamed w) (hknown : duplicate_of w.store payload = some existing) :
    Meets AnyStep (create_upload_job env payload has_file) w (fun r w' =>
      r = .ok (existing.document_id, none) ∧ DocumentsNamed w') := by
  have hstored : w.store.documents.get? existing.document_id = some existing := by
    unfold duplicate_of find_document_by_file_sha256 at hknown
    split at hknown
    · cases hknown
    · exact (Table.mem_values_iff _ _).1 (List.mem_of_find?_eq_some hknown)
  obtain ⟨hex, hid⟩ := hnamed _ _ hstored
  unfold create_upload_job
  refine saved.spec ?_ ?_
  · rw [meets_bind, meets_read, then_ok, hknown]
    dsimp only
    rw [meets_pure, hid, no_job_of_document hn]
    exact ⟨rfl, hnamed⟩
  · intro response t t' h hstore _
    exact ⟨h.1, h.2.of_same (by rw [hstore])⟩

/-! ## A history of uploads -/

def upload_op (upload : UploadPayload × Bool) : Op := .upload upload.1 upload.2

/-- The world after uploads, from the empty store. -/
def after_uploads (env : Env) (uploads : List (UploadPayload × Bool)) : World :=
  after env World.start (uploads.map upload_op)

theorem upload_named (payload : UploadPayload) (has_file : Bool) (hn : Named env w) (hnamed : DocumentsNamed w) :
    DocumentsNamed ((create_upload_job env payload has_file).final w) := by
  rcases hduplicate : duplicate_of w.store payload with _ | existing
  · exact (create_upload_job.new has_file hnamed hduplicate).2.1
  · exact (create_upload_job.known has_file hn hnamed hduplicate).2.2

theorem uploads_named (env : Env) (uploads : List (UploadPayload × Bool)) :
    DocumentsNamed (after_uploads env uploads) := by
  induction uploads using List.reverseRecOn with
  | nil =>
    intro id document hget
    cases hget
  | append_singleton uploads upload ih =>
    unfold after_uploads after at *
    rw [List.map_append, List.foldl_append]
    have hfinal := upload_named upload.1 upload.2
      (named_reached (reached_after env (uploads.map upload_op))) ih
    show DocumentsNamed ((quiet (create_upload_job env upload.1 upload.2)).final _)
    unfold quiet
    rw [final_bind_pure]
    exact hfinal

/-- The next upload, when it returns, names the document and the job of its own
request. -/
def AnswersRight (env : Env) (w : World) (payload : UploadPayload) (has_file : Bool) : Prop :=
  ∀ response, (create_upload_job env payload has_file).result w = .ok response →
    NamesRight payload ((create_upload_job env payload has_file).final w) response

/-- After any uploads, the next one is answered right exactly when its tenant
has no document with the same content. -/
theorem upload_answers_right_iff (env : Env) (uploads : List (UploadPayload × Bool))
    (payload : UploadPayload) (has_file : Bool) :
    AnswersRight env (after_uploads env uploads) payload has_file ↔
      duplicate_of (after_uploads env uploads).store payload = none := by
  have hn : Named env (after_uploads env uploads) := named_reached (reached_after env _)
  have hnamed := uploads_named env uploads
  constructor
  · intro h
    by_contra hne
    obtain ⟨existing, hknown⟩ := Option.ne_none_iff_exists'.1 hne
    have hanswer := (create_upload_job.known has_file hn hnamed hknown).2.1
    obtain ⟨job_id, hjob, -⟩ := (h _ hanswer).job
    cases hjob
  · intro hnew response hresult
    have hends : Meets AnyStep (create_upload_job env payload has_file) _ _ :=
      create_upload_job.new has_file hnamed hnew
    have hanswer := hends.2.2
    rw [hresult] at hanswer
    exact hanswer

/-- The tenant sends the file of one project to another project. -/
theorem second_project_gets_no_job :
    ¬ AnswersRight calm_env (after_uploads calm_env [(bid_file, true)])
      { bid_file with project_id := "other" } true := by
  intro h
  have hresult : ((create_upload_job calm_env { bid_file with project_id := "other" } true).result
      (after_uploads calm_env [(bid_file, true)])).toOption = some ("doc_", none) := by
    decide +kernel
  obtain ⟨job_id, hjob, -⟩ := (h _ (ok_of_toOption hresult)).job
  cases hjob

end bid_evaluation.upload_laws
