-- `list_jobs`, and the route that shows its pages. The cursor of a page is the
-- text of an offset.
import BidEvaluation.Lib.Paging
import BidEvaluation.Store

open dict_lib paging bid_evaluation.values bid_evaluation.core

namespace bid_evaluation.job_pages

/-! ## The pages -/

/-- A filter that is missing or empty keeps all. -/
def filter_word (word : Option String) (word_of : Job → String) (jobs : List Job) : List Job :=
  match word with
  | none => jobs
  | some word => if word = "" then jobs else jobs.filter (fun j => word_of j = word)

def matching_jobs (s : Store) (tenant_id : String) (status job_type : Option String) : List Job :=
  let jobs := s.jobs.values.filter (fun j => j.tenant_id = tenant_id)
  let jobs := filter_word status (fun j => j.status.word) jobs
  filter_word job_type (fun j => j.job_type.word) jobs

/-- The offset that a cursor names. A cursor that is no number names the
first page. -/
def start_of (cursor : Option String) : Nat :=
  match cursor with
  | none => 0
  | some text =>
    if text = "" then 0
    else
      match int_of_str text with
      | some n => (max 0 n).toNat
      | none => 0

/-- `min(max(limit, 1), 100)`. -/
def page_size (limit : Int) : Nat := (min (max limit 1) 100).toNat

def list_jobs (s : Store) (tenant_id : String) (status job_type cursor : Option String) (limit : Int) :
    Page Job String :=
  let jobs := matching_jobs s tenant_id status job_type
  let start := start_of cursor
  let limit := page_size limit
  { items := (jobs.drop start).take limit
    total := jobs.length
    next_cursor := if start + limit < jobs.length then some (toString (start + limit)) else none }

/-! ## The route -/

structure JobItem where
  job_id : String
  job_type : String
  status : String
  retry_count : Nat
  thread_id : String
  trace_id : String
  resource_type : String
  resource_id : String
  last_error : Option ErrorInfo

/-- A job as the route shows it. One without a trace gets that of the
request. -/
def job_item (trace_id : String) (job : Job) : JobItem where
  job_id := job.job_id
  job_type := job.job_type.word
  status := job.status.word
  retry_count := job.retry_count
  thread_id := job.thread_id
  trace_id := if job.trace_id = "" then trace_id else job.trace_id
  resource_type := job.resource_type
  resource_id := job.resource_id
  last_error := job.last_error

/-- The route, once the bounds of `limit` are checked. -/
def list_jobs_route (trace_id : String) (s : Store) (tenant_id : String)
    (status job_type cursor : Option String) (limit : Int) : Page JobItem String :=
  (list_jobs s tenant_id status job_type cursor limit).map (job_item trace_id)

/-! ## Cursors -/

theorem digits_read (letters : List Char) (h : ∀ c ∈ letters, c.isDigit = true) (acc : Nat)
    (after_digit : Bool) (hsome : letters ≠ [] ∨ after_digit = true) :
    digits? acc after_digit letters = some (Nat.ofDigitChars 10 letters acc) := by
  induction letters generalizing acc after_digit with
  | nil =>
    have hafter : after_digit = true := hsome.resolve_left (fun h => h rfl)
    unfold digits?
    rw [if_pos hafter, Nat.ofDigitChars_nil]
  | cons c rest ih =>
    rw [List.forall_mem_cons] at h
    have hno : c ≠ '_' := by
      rintro rfl
      exact absurd h.1 (by decide)
    unfold digits?
    rw [if_neg hno, if_pos h.1, ih h.2 _ true (.inr rfl), Nat.ofDigitChars_cons, Nat.mul_comm acc 10]
    rfl

theorem not_white_of_digit {c : Char} (h : c.isDigit = true) : c.isWhitespace = false := by
  rw [Bool.eq_false_iff]
  intro hwhite
  simp only [Char.isWhitespace, Bool.or_eq_true, decide_eq_true_eq, or_assoc] at hwhite
  rcases hwhite with rfl | rfl | rfl | rfl <;> exact absurd h (by decide)

theorem dropWhile_digits {letters : List Char} (h : ∀ c ∈ letters, c.isDigit = true) :
    letters.dropWhile Char.isWhitespace = letters := by
  cases letters with
  | nil => rfl
  | cons c rest =>
    rw [List.dropWhile_cons_of_neg]
    rw [not_white_of_digit (h c List.mem_cons_self)]
    exact Bool.false_ne_true

/-- A number is read back from its text. -/
theorem int_of_str_toString (n : Nat) : int_of_str (toString n) = some (n : Int) := by
  have hdigits : ∀ c ∈ Nat.toDigits 10 n, c.isDigit = true :=
    fun c hc => Nat.isDigit_of_mem_toDigits (by decide) (by decide) hc
  have hread := digits_read (Nat.toDigits 10 n) hdigits 0 false (.inl Nat.toDigits_ne_nil)
  have hreverse : ∀ c ∈ (Nat.toDigits 10 n).reverse, c.isDigit = true :=
    fun c hc => hdigits c (List.mem_reverse.1 hc)
  rw [Nat.ofDigitChars_ten_toDigits] at hread
  unfold int_of_str
  rw [Nat.toString_eq_ofList_toDigits, String.toList_ofList, dropWhile_digits hdigits,
    dropWhile_digits hreverse, List.reverse_reverse]
  split
  · rename_i rest heq
    exact absurd (hdigits '-' (heq ▸ List.mem_cons_self)) (by decide)
  · rename_i rest heq
    exact absurd (hdigits '+' (heq ▸ List.mem_cons_self)) (by decide)
  · rw [hread]
    rfl

theorem start_of_toString (n : Nat) : start_of (some (toString n)) = n := by
  have hsome : toString n ≠ "" := by
    intro h
    have hlist := congrArg String.toList h
    rw [Nat.toString_eq_ofList_toDigits, String.toList_ofList] at hlist
    exact Nat.toDigits_ne_nil hlist
  unfold start_of
  dsimp only
  rw [if_neg hsome, int_of_str_toString]
  dsimp only
  rw [max_eq_right (Int.natCast_nonneg n), Int.toNat_natCast]

/-! ## The jobs that are listed -/

/-- The job is the tenant's and passes both filters. -/
structure Listed (tenant_id : String) (status job_type : Option String) (job : Job) : Prop where
  tenant : job.tenant_id = tenant_id
  status : ∀ word, status = some word → word ≠ "" → job.status.word = word
  job_type : ∀ word, job_type = some word → word ≠ "" → job.job_type.word = word

theorem mem_filter_word {word : Option String} {word_of : Job → String} {jobs : List Job} {job : Job} :
    job ∈ filter_word word word_of jobs ↔
      job ∈ jobs ∧ ∀ w, word = some w → w ≠ "" → word_of job = w := by
  unfold filter_word
  cases word with
  | none => simp
  | some w =>
    by_cases hempty : w = ""
    · simp [hempty]
    · simp [hempty]

theorem filter_word_sublist (word : Option String) (word_of : Job → String) (jobs : List Job) :
    (filter_word word word_of jobs).Sublist jobs := by
  unfold filter_word
  cases word with
  | none => exact List.Sublist.refl _
  | some w =>
    dsimp only
    split
    · exact List.Sublist.refl _
    · exact List.filter_sublist

theorem mem_matching_jobs {s : Store} {tenant_id : String} {status job_type : Option String} {job : Job} :
    job ∈ matching_jobs s tenant_id status job_type ↔
      s.jobs.get? job.job_id = some job ∧ Listed tenant_id status job_type job := by
  unfold matching_jobs
  dsimp only
  rw [mem_filter_word, mem_filter_word, List.mem_filter, decide_eq_true_eq, Table.mem_values_iff]
  constructor
  · rintro ⟨⟨⟨hjob, htenant⟩, hstatus⟩, htype⟩
    exact ⟨hjob, htenant, hstatus, htype⟩
  · rintro ⟨hjob, htenant, hstatus, htype⟩
    exact ⟨⟨⟨hjob, htenant⟩, hstatus⟩, htype⟩

theorem matching_jobs_nodup (s : Store) (tenant_id : String) (status job_type : Option String) :
    ((matching_jobs s tenant_id status job_type).map Job.job_id).Nodup := by
  apply List.Nodup.sublist _ s.jobs.keys_nodup
  apply List.Sublist.map
  exact ((filter_word_sublist _ _ _).trans (filter_word_sublist _ _ _)).trans List.filter_sublist

/-! ## The law -/

theorem list_jobs_by_offset (s : Store) (tenant_id : String) (status job_type : Option String) (limit : Int) :
    ByOffset (matching_jobs s tenant_id status job_type) (page_size limit) start_of toString
      fun cursor => list_jobs s tenant_id status job_type cursor limit := by
  have hsize : 0 < page_size limit := by
    unfold page_size
    omega
  exact ⟨hsize, rfl, start_of_toString, fun _ => rfl, fun _ => rfl, fun _ => rfl⟩

/-- The pages end, and they have the matching jobs of the tenant, each once
and in the order of the store, whatever the limit is. -/
theorem job_pages_list_jobs (s : Store) (tenant_id : String) (status job_type : Option String) :
    ∃ jobs : List Job, (jobs.map Job.job_id).Nodup ∧
      (∀ job, job ∈ jobs ↔ s.jobs.get? job.job_id = some job ∧ Listed tenant_id status job_type job) ∧
      ∀ limit : Int, ∃ pages,
        (∀ fuel, jobs.length < fuel → follow (fun cursor =>
          list_jobs s tenant_id status job_type cursor limit) fuel none = some pages) ∧
        pages.flatMap Page.items = jobs ∧ ∀ page ∈ pages, page.total = jobs.length := by
  refine ⟨matching_jobs s tenant_id status job_type, matching_jobs_nodup s tenant_id status job_type,
    fun job => mem_matching_jobs, fun limit => ?_⟩
  obtain ⟨pages, hitems, htotals, hfollow⟩ :=
    follow_all (list_jobs_by_offset s tenant_id status job_type limit)
  exact ⟨pages, hfollow, hitems, htotals⟩

/-- The pages of the route show the same jobs. -/
theorem route_pages_show_jobs (trace_id : String) (s : Store) (tenant_id : String)
    (status job_type : Option String) (limit : Int) : ∃ pages,
      (∀ fuel, (matching_jobs s tenant_id status job_type).length < fuel → follow (fun cursor =>
        list_jobs_route trace_id s tenant_id status job_type cursor limit) fuel none = some pages) ∧
      pages.flatMap Page.items = (matching_jobs s tenant_id status job_type).map (job_item trace_id) := by
  obtain ⟨pages, hitems, -, hfollow⟩ :=
    follow_all ((list_jobs_by_offset s tenant_id status job_type limit).map (job_item trace_id))
  rw [List.length_map] at hfollow
  exact ⟨pages, hfollow, hitems⟩

end bid_evaluation.job_pages
