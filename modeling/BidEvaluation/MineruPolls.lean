-- The laws of the MinerU client: polling ends in time with the first answer
-- that decides, and a file is handed over once, to the place that was given
-- for it, with the result read from where that batch has it.
import BidEvaluation.MineruClient
import Mathlib.Algebra.BigOperators.Group.List.Basic
import Mathlib.Algebra.Order.Floor.Div
import Mathlib.Data.Rat.Floor
import Mathlib.Tactic.Linarith
import Mathlib.Tactic.Ring

open dict_lib stepwise bid_evaluation.values bid_evaluation.core bid_evaluation.mineru_files
  bid_evaluation.mineru_client

namespace bid_evaluation.mineru_polls

variable {α β : Type} {g : ServiceEnv β} {cfg : MineruApiConfig} {w : Watch α}

/-! ## Calls -/

@[simp] theorem final_tell (call : Call) (h : History) : (tell call).final h = h ++ [call] := rfl

@[simp] theorem result_time (h : History) :
    (time g).result h = .ok (g.clock (h ++ [.now])) := rfl

@[simp] theorem final_time (h : History) : (time g).final h = h ++ [.now] := rfl

/-! ## Rounds -/

/-- The clock does not go back, and a sleep takes at least its time. -/
structure Ticks (g : ServiceEnv β) : Prop where
  onward : ∀ h call, g.clock h ≤ g.clock (h ++ [call])
  slept : ∀ h seconds, 0 ≤ seconds → g.clock h + seconds ≤ g.clock (h ++ [.sleep seconds])

def status_call (cfg : MineruApiConfig) (w : Watch α) : Call :=
  .api "GET" (cfg.api_base ++ w.endpoint) none

/-- The calls of a round that decides nothing. -/
def round (cfg : MineruApiConfig) (w : Watch α) : History :=
  [.now, status_call cfg w, .sleep cfg.poll_interval_s]

def waited (cfg : MineruApiConfig) (w : Watch α) : History → Nat → History
  | h, 0 => h
  | h, n + 1 => waited cfg w (h ++ round cfg w) n

/-- What the status decides that a round asks for, where `h` came before the round. -/
def decides (g : ServiceEnv β) (cfg : MineruApiConfig) (w : Watch α) (h : History) :
    Except PyErr (Option α) := do
  let result ← read_reply g (g.http (h ++ [.now, status_call cfg w]))
  let data ← status_data g w.what result
  w.verdict data

/-- The time from the start to the check of a round. -/
def elapsed (g : ServiceEnv β) (start : Rat) (h : History) : Rat := g.clock (h ++ [.now]) - start

/-- How many rounds there can be. -/
def limit (cfg : MineruApiConfig) : Nat := ⌈cfg.max_poll_time_s / cfg.poll_interval_s⌉₊

theorem result_get_status (h : History) : (get_status g cfg w).result h =
    read_reply g (g.http (h ++ [status_call cfg w])) >>= status_data g w.what :=
  result_bind_lift _

theorem final_get_status (h : History) :
    (get_status g cfg w).final h = h ++ [status_call cfg w] := final_bind_lift _

theorem result_ask (h : History) : (ask g cfg w).result (h ++ [.now]) = decides g cfg w h := by
  unfold ask decides
  rw [result_bind_lift, result_get_status, List.append_assoc]
  exact bind_assoc _ _ _

theorem final_ask (h : History) :
    (ask g cfg w).final (h ++ [.now]) = h ++ [.now, status_call cfg w] := by
  unfold ask
  rw [final_bind_lift, final_get_status, List.append_assoc]
  rfl

theorem result_within (start : Rat) (h : History) : (within_time g cfg start).result h =
    .ok (decide (elapsed g start h < cfg.max_poll_time_s)) := rfl

theorem final_within (start : Rat) (h : History) :
    (within_time g cfg start).final h = h ++ [.now] := rfl

theorem after_round_eq (start : Rat) (h : History) : after_round (within_time g cfg start)
    (ask g cfg w) (tell (.sleep cfg.poll_interval_s)) h = h ++ round cfg w := by
  unfold after_round
  rw [final_within, final_ask, final_tell, List.append_assoc]
  rfl

theorem rounds_eq (start : Rat) (h : History) (n : Nat) : rounds (within_time g cfg start)
    (ask g cfg w) (tell (.sleep cfg.poll_interval_s)) h n = waited cfg w h n := by
  induction n generalizing h with
  | zero => rfl
  | succ n ih =>
    unfold rounds waited
    rw [after_round_eq, ih]

theorem undecided_iff (start : Rat) (h : History) : Undecided (within_time g cfg start)
    (ask g cfg w) (tell (.sleep cfg.poll_interval_s)) h ↔
      elapsed g start h < cfg.max_poll_time_s ∧ decides g cfg w h = .ok none := by
  refine ⟨fun hu => ⟨?_, ?_⟩, fun ⟨htime, hanswer⟩ => ⟨?_, ?_, rfl⟩⟩
  · have htime := hu.in_time
    rw [result_within] at htime
    exact of_decide_eq_true (Except.ok.inj htime)
  · rw [← result_ask]
    exact hu.pending
  · rw [result_within, decide_eq_true htime]
  · rw [final_within, result_ask, hanswer]

/-! ## Time -/

theorem Ticks.round_takes (ht : Ticks g) (hpos : 0 < cfg.poll_interval_s) (h : History) :
    g.clock h + cfg.poll_interval_s ≤ g.clock (h ++ round cfg w) := by
  have hnow := ht.onward h .now
  have hasked := ht.onward (h ++ [.now]) (status_call cfg w)
  have hslept := ht.slept (h ++ [.now] ++ [status_call cfg w]) cfg.poll_interval_s hpos.le
  have hround : h ++ round cfg w =
      h ++ [.now] ++ [status_call cfg w] ++ [.sleep cfg.poll_interval_s] := by
    rw [List.append_assoc, List.append_assoc]
    rfl
  rw [hround]
  linarith

theorem Ticks.waited_takes (ht : Ticks g) (hpos : 0 < cfg.poll_interval_s) (h : History) (n : Nat) :
    g.clock h + n * cfg.poll_interval_s ≤ g.clock (waited cfg w h n) := by
  induction n generalizing h with
  | zero =>
    unfold waited
    rw [Nat.cast_zero, zero_mul, add_zero]
  | succ n ih =>
    have hround := ht.round_takes (w := w) hpos h
    have hrest := ih (h ++ round cfg w)
    unfold waited
    push_cast
    linarith

/-- Where every round was begun in time, there were not too many. -/
theorem Ticks.rounds_le (ht : Ticks g) (hpos : 0 < cfg.poll_interval_s) {h : History} {n : Nat}
    (hin : ∀ k < n, elapsed g (g.clock h) (waited cfg w h k) < cfg.max_poll_time_s) :
    n ≤ limit cfg := by
  cases n with
  | zero => exact Nat.zero_le _
  | succ n =>
    have hlast := hin n (Nat.lt_succ_self n)
    have htakes := ht.waited_takes (w := w) hpos h n
    have hnow := ht.onward (waited cfg w h n) .now
    unfold elapsed at hlast
    have hlt : (n : Rat) * cfg.poll_interval_s < cfg.max_poll_time_s := by linarith
    exact Nat.lt_ceil.2 ((lt_div_iff₀ hpos).2 hlt)

/-! ## Polling -/

/-- How the polling ends after some rounds that decide nothing, which left `h`. -/
inductive Polled (g : ServiceEnv β) (cfg : MineruApiConfig) (w : Watch α) (start : Rat)
    (h : History) : Except PyErr (Option α) → History → Prop where
  | decided (htime : elapsed g start h < cfg.max_poll_time_s)
      (hanswer : decides g cfg w h ≠ .ok none) :
      Polled g cfg w start h (decides g cfg w h) (h ++ [.now, status_call cfg w])
  | late (htime : cfg.max_poll_time_s ≤ elapsed g start h) :
      Polled g cfg w start h (.error (too_late g cfg w)) (h ++ [.now])

/-- A round of polling is in time, and its answer is that there is nothing yet. -/
def Pending (g : ServiceEnv β) (cfg : MineruApiConfig) (w : Watch α) (start : Rat)
    (h : History) : Prop := elapsed g start h < cfg.max_poll_time_s ∧ decides g cfg w h = .ok none

theorem ending_polled {start : Rat} {h h' : History} {r : Except PyErr (Option α)}
    (hend : Ending (within_time g cfg start) (ask g cfg w) (tell (.sleep cfg.poll_interval_s))
      (too_late g cfg w) h r h') : Polled g cfg w start h r h' := by
  cases hend with
  | unchecked hraised => cases hraised
  | late hlate =>
    rw [final_within]
    exact .late (not_lt.1 (of_decide_eq_false (Except.ok.inj hlate)))
  | decided htime hask hr =>
    rw [final_within, result_ask] at hask
    rw [final_within, final_ask, ← hask]
    exact .decided (of_decide_eq_true (Except.ok.inj htime)) (hask ▸ hr)
  | woken htime hpending hraised => cases hraised

/-- Whatever the service answers and whenever, polling takes the first answer
that decides something and asks no more. It gives up only when the time is up,
and there are at most as many rounds as intervals in the time that it has. -/
theorem polling_takes_the_first_decision (g : ServiceEnv β) (cfg : MineruApiConfig)
    (w : Watch α) (ht : Ticks g) (hpos : 0 < cfg.poll_interval_s) (h : History) {fuel : Nat}
    (hfuel : limit cfg < fuel) : ∃ n ≤ limit cfg,
      (∀ k < n, Pending g cfg w (g.clock (h ++ [.now])) (waited cfg w (h ++ [.now]) k)) ∧
        Polled g cfg w (g.clock (h ++ [.now])) (waited cfg w (h ++ [.now]) n)
          ((poll_status g cfg w fuel).result h) ((poll_status g cfg w fuel).final h) := by
  obtain ⟨n, hn, hbefore, hend⟩ := poll.ends (h ++ [.now]) hfuel
    fun n hundecided => ht.rounds_le (w := w) hpos fun k hk => by
      rw [← rounds_eq (g := g) (g.clock (h ++ [.now]))]
      exact ((undecided_iff _ _).1 (hundecided k hk)).1
  refine ⟨n, hn, fun k hk => ?_, ?_⟩
  · have hround := (undecided_iff _ _).1 (hbefore k hk)
    rw [rounds_eq] at hround
    exact hround
  · rw [rounds_eq] at hend
    unfold poll_status
    rw [result_bind (result_time h), final_bind (result_time h)]
    exact ending_polled hend

/-! ## A service that is done with the second answer -/

/-- How long a call takes: no call but a sleep takes time. -/
def duration : Call → Rat
  | .sleep seconds => max seconds 0
  | _ => 0

def is_get : Call → Bool
  | .api "GET" _ _ => true
  | _ => false

def slow_json : List (String × PyVal) :=
  [("urls", .dict [("code", .int 0), ("data", .dict [("batch_id", .str "batch"),
      ("file_urls", .list [.str "https://upload"])])]),
    ("busy", .dict [("code", .int 0), ("data", .dict [("extract_result",
      .list [.dict [("state", .str "running")]])])]),
    ("done", .dict [("code", .int 0), ("data", .dict [("extract_result", .list [.dict
      [("state", .str "done"), ("full_zip_url", .str "https://zip")]])])]),
    ("[]", .list [])]

/-- The batch is done the second time that it is asked for. -/
def slow_service : ServiceEnv String where
  env := operations.calm_env
  json_loads text :=
    match lookupEntry slow_json text with
    | some value => .ok value
    | none => .error (.raised "JSONDecodeError" "Expecting value")
  lower text := text
  decode text := text
  clock h := (h.map duration).sum
  http h :=
    match h.countP is_get with
    | 0 => .read "urls"
    | 1 => .read "busy"
    | _ => .read "done"
  put _ := .status 200 ""
  fetch _ := .zip [⟨"full.md", "# Bid"⟩]

def slow_cfg : MineruApiConfig where
  api_base := "https://mineru"
  poll_interval_s := 5
  max_poll_time_s := 180
  is_ocr := true
  enable_formula := false

theorem slow_service.clock_append (h : History) (call : Call) :
    slow_service.clock (h ++ [call]) = slow_service.clock h + duration call := by
  show ((h ++ [call]).map duration).sum = (h.map duration).sum + duration call
  rw [List.map_append, List.sum_append]
  exact congrArg _ (add_zero _)

theorem slow_service.ticks : Ticks slow_service where
  onward h call := by
    rw [clock_append]
    refine le_add_of_nonneg_right ?_
    cases call with
    | sleep seconds => exact le_max_right seconds 0
    | _ => exact le_refl 0
  slept h seconds _ := by
    rw [clock_append]
    exact add_le_add (le_refl _) (le_max_left seconds 0)

/-- The first answer decides nothing, and the second one ends the polling. -/
theorem second_answer_decides :
    (poll_batch_until_complete slow_service slow_cfg "batch" 37).result [] =
        .ok (some ["https://zip"]) ∧
      ∃ n ≤ limit slow_cfg,
        (∀ k < n, Pending slow_service slow_cfg (batch_watch slow_service "batch")
          (slow_service.clock [.now])
          (waited slow_cfg (batch_watch slow_service "batch") [.now] k)) ∧
        Polled slow_service slow_cfg (batch_watch slow_service "batch")
          (slow_service.clock [.now])
          (waited slow_cfg (batch_watch slow_service "batch") [.now] n)
            ((poll_batch_until_complete slow_service slow_cfg "batch" 37).result [])
            ((poll_batch_until_complete slow_service slow_cfg "batch" 37).final []) :=
  ⟨ok_of_toOption (by decide +kernel), polling_takes_the_first_decision slow_service slow_cfg
    (batch_watch slow_service "batch") slow_service.ticks (by decide +kernel) []
      (show limit slow_cfg < 37 by decide +kernel)⟩

/-! ## A file -/

def is_put : Call → Bool
  | .put _ => true
  | _ => false

def is_fetch : Call → Bool
  | .fetch _ => true
  | _ => false

def is_api : Call → Bool
  | .api _ _ _ => true
  | _ => false

/-- The calls of some rounds that decide nothing. -/
def asked (cfg : MineruApiConfig) (w : Watch α) (n : Nat) : History :=
  (List.replicate n (round cfg w)).flatten

theorem waited_eq (h : History) (n : Nat) : waited cfg w h n = h ++ asked cfg w n := by
  induction n generalizing h with
  | zero => exact (List.append_nil h).symm
  | succ n ih =>
    unfold waited
    rw [ih, List.append_assoc]
    rfl

theorem filter_asked {p : Call → Bool} (hnone : (round cfg w).filter p = []) (n : Nat) :
    (asked cfg w n).filter p = [] := by
  unfold asked
  rw [List.filter_flatten, List.map_replicate, hnone, List.flatten_replicate_nil]

theorem api_asked (n : Nat) : (asked cfg w n).countP is_api = n := by
  unfold asked
  rw [List.countP_flatten, List.map_replicate, List.sum_replicate]
  exact Nat.mul_one n

theorem status_of_asked {n : Nat} {call : Call} (hin : call ∈ asked cfg w n)
    (hapi : is_api call = true) : call = status_call cfg w := by
  obtain ⟨calls, hcalls, hin⟩ := List.mem_flatten.1 hin
  rw [(List.mem_replicate.1 hcalls).2] at hin
  rcases List.mem_cons.1 hin with rfl | hin
  · cases hapi
  rcases List.mem_cons.1 hin with rfl | hin
  · rfl
  · rw [List.mem_singleton.1 hin] at hapi
    cases hapi

/-- The calls of the last round of a polling. -/
theorem Polled.calls {start : Rat} {h h' : History} {r : Except PyErr (Option α)}
    (hpolled : Polled g cfg w start h r h') :
    h' = h ++ [.now, status_call cfg w] ∨ h' = h ++ [.now] := by
  cases hpolled with
  | decided htime hanswer => exact .inl rfl
  | late htime => exact .inr rfl

theorem Polled.found {start : Rat} {h h' : History} {r : Except PyErr (Option α)}
    (hpolled : Polled g cfg w start h r h') {found : Option α} (hr : r = .ok found) :
    found ≠ none ∧ decides g cfg w h = .ok found ∧ h' = h ++ [.now, status_call cfg w] := by
  cases hpolled with
  | decided htime hanswer =>
    refine ⟨?_, hr, rfl⟩
    rintro rfl
    exact hanswer hr
  | late htime => cases hr

variable {adapter : MineruOfficialApiAdapter} {filename document_id : String}
  {parser_version : Option String}

def upload_call (cfg : MineruApiConfig) (filename document_id : String) : Call :=
  .api "POST" (cfg.api_base ++ "/file-urls/batch") (some [("files", .list [.dict
    [("name", .str filename), ("data_id", .str (data_id_of document_id))]]),
      ("model_version", .str "vlm")])

/-- The batch that the service makes for a file, and the place where it takes it. -/
def place (g : ServiceEnv β) (cfg : MineruApiConfig) (filename document_id : String)
    (h : History) : Except PyErr (String × PyVal) := do
  let answer ← (request_upload_urls g cfg filename (data_id_of document_id)).result h
  let upload_url ← first_of answer.2
  pure (answer.1, upload_url)

/-- What the chunk is made of: the answer to the download that the history ends with. -/
def chunk_fetched (g : ServiceEnv β) (adapter : MineruOfficialApiAdapter) (document_id : String)
    (parser_version : Option String) (h : History) : Except PyErr PyDict := do
  let content ← read_zip g (g.fetch h)
  chunk_of_content g adapter document_id parser_version content

/-- The first `zip_url` that the batch is done with, after some rounds. -/
def DoneWith (g : ServiceEnv β) (cfg : MineruApiConfig) (batch_id : String) (h : History)
    (n : Nat) (zip_url : String) : Prop :=
  (∀ k < n, Pending g cfg (batch_watch g batch_id) (g.clock h)
      (waited cfg (batch_watch g batch_id) h k)) ∧
    ∃ zip_urls, decides g cfg (batch_watch g batch_id) (waited cfg (batch_watch g batch_id) h n) =
      .ok (some (zip_url :: zip_urls))

/-- The history once the file is at its place, and the polling has begun. -/
def begun (cfg : MineruApiConfig) (filename document_id : String) (h : History)
    (upload_url : PyVal) : History :=
  h ++ [upload_call cfg filename document_id, .put upload_url, .now]

/-- How the parsing of a file ends: at the first call that fails, or with the
chunk of the zip that the batch was done with. -/
inductive HandedOver (g : ServiceEnv β) (cfg : MineruApiConfig) (adapter : MineruOfficialApiAdapter)
    (filename document_id : String) (parser_version : Option String) (h : History) :
    Except PyErr (Option PyDict) → History → Prop where
  | no_place {e : PyErr} (hplace : place g cfg filename document_id h = .error e) :
      HandedOver g cfg adapter filename document_id parser_version h (.error e)
        (h ++ [upload_call cfg filename document_id])
  | not_taken {batch_id : String} {upload_url : PyVal} {e : PyErr}
      (hplace : place g cfg filename document_id h = .ok (batch_id, upload_url))
      (hput : read_put (g.put (h ++ [upload_call cfg filename document_id, .put upload_url])) =
        .error e) :
      HandedOver g cfg adapter filename document_id parser_version h (.error e)
        (h ++ [upload_call cfg filename document_id, .put upload_url])
  | not_done {batch_id : String} {upload_url : PyVal} {n : Nat} {e : PyErr} {h' : History}
      (hplace : place g cfg filename document_id h = .ok (batch_id, upload_url))
      (hn : n ≤ limit cfg) {start : Rat} {polled : Except PyErr (Option (List String))}
      (hpolled : Polled g cfg (batch_watch g batch_id) start (waited cfg (batch_watch g batch_id)
        (begun cfg filename document_id h upload_url) n) polled h') :
      HandedOver g cfg adapter filename document_id parser_version h (.error e) h'
  | read {batch_id : String} {upload_url : PyVal} {n : Nat} {zip_url : String} {h' : History}
      (hplace : place g cfg filename document_id h = .ok (batch_id, upload_url))
      (hn : n ≤ limit cfg)
      (hdone : DoneWith g cfg batch_id (begun cfg filename document_id h upload_url) n zip_url)
      (hcalls : h' = waited cfg (batch_watch g batch_id)
        (begun cfg filename document_id h upload_url) n ++
          [.now, status_call cfg (batch_watch g batch_id), .fetch zip_url]) :
      HandedOver g cfg adapter filename document_id parser_version h
        ((chunk_fetched g adapter document_id parser_version h').map some) h'

theorem chunk_of_zip.spec (g : ServiceEnv β) (adapter : MineruOfficialApiAdapter)
    (document_id : String) (parser_version : Option String) (zip_url : String) (h : History) :
    (chunk_of_zip g adapter document_id parser_version zip_url).result h =
        (chunk_fetched g adapter document_id parser_version (h ++ [.fetch zip_url])).map some ∧
      (chunk_of_zip g adapter document_id parser_version zip_url).final h =
        h ++ [.fetch zip_url] := by
  unfold chunk_of_zip chunk_fetched
  have hresult : (download_and_extract_zip g zip_url).result h =
      read_zip g (g.fetch (h ++ [.fetch zip_url])) := rfl
  have hfinal : (download_and_extract_zip g zip_url).final h = h ++ [.fetch zip_url] := rfl
  cases hread : read_zip g (g.fetch (h ++ [.fetch zip_url])) with
  | error e =>
    rw [hread] at hresult
    rw [result_bind_error hresult, final_bind_error hresult]
    exact ⟨rfl, hfinal⟩
  | ok content =>
    rw [hread] at hresult
    rw [result_bind hresult, final_bind hresult, hfinal]
    dsimp only [bind, Except.bind]
    cases chunk_of_content g adapter document_id parser_version content with
    | error e => exact ⟨rfl, rfl⟩
    | ok chunk => exact ⟨rfl, rfl⟩

/-- A batch that is done has a zip. -/
theorem batch_verdict.gives (data : PyVal) :
    Gives (batch_verdict g data) fun found => found ≠ some [] := by
  unfold batch_verdict
  refine gives_bind fun extract_results => ?_
  split
  · exact gives_pure.2 nofun
  · refine gives_bind fun first_result => gives_bind fun state => ?_
    split
    · refine gives_bind fun zip_urls => ?_
      split
      · exact gives_error
      · rename_i hne
        exact gives_pure.2 fun heq => hne (Option.some.inj heq)
    · split
      · exact gives_bind fun err_msg => gives_error
      · exact gives_pure.2 nofun

theorem decides_batch (batch_id : String) (h : History) :
    Gives (decides g cfg (batch_watch g batch_id) h) fun found => found ≠ some [] :=
  gives_bind fun _ => gives_bind fun data => batch_verdict.gives data

/-- What comes after the file is at its place. -/
theorem polled_handover (ht : Ticks g) (hpos : 0 < cfg.poll_interval_s) (h : History)
    {fuel : Nat} (hfuel : limit cfg < fuel) {batch_id : String} {upload_url : PyVal}
    (hplace : place g cfg filename document_id h = .ok (batch_id, upload_url)) :
    HandedOver g cfg adapter filename document_id parser_version h
      ((poll_batch_until_complete g cfg batch_id fuel >>= chunk_of_first g adapter document_id
        parser_version).result
          (h ++ [upload_call cfg filename document_id, .put upload_url]))
      ((poll_batch_until_complete g cfg batch_id fuel >>= chunk_of_first g adapter document_id
        parser_version).final
          (h ++ [upload_call cfg filename document_id, .put upload_url])) := by
  have hbegun : h ++ [upload_call cfg filename document_id, .put upload_url] ++ [.now] =
      begun cfg filename document_id h upload_url := List.append_assoc _ _ _
  obtain ⟨n, hn, hbefore, hpolled⟩ := polling_takes_the_first_decision g cfg
    (batch_watch g batch_id) ht hpos
      (h ++ [upload_call cfg filename document_id, .put upload_url]) hfuel
  rw [hbegun] at hbefore hpolled
  cases hr : (poll_batch_until_complete g cfg batch_id fuel).result
      (h ++ [upload_call cfg filename document_id, .put upload_url]) with
  | error e =>
    rw [result_bind_error hr, final_bind_error hr]
    exact .not_done hplace hn hpolled
  | ok found =>
    obtain ⟨hsome, hanswer, hlast⟩ := hpolled.found hr
    rw [result_bind hr, final_bind hr]
    cases found with
    | none => exact absurd rfl hsome
    | some zip_urls =>
      cases zip_urls with
      | nil => exact absurd rfl (decides_batch batch_id _ _ hanswer)
      | cons zip_url rest =>
        have hcalls : (poll_batch_until_complete g cfg batch_id fuel).final
            (h ++ [upload_call cfg filename document_id, .put upload_url]) ++ [.fetch zip_url] =
              waited cfg (batch_watch g batch_id)
                (begun cfg filename document_id h upload_url) n ++
                  [.now, status_call cfg (batch_watch g batch_id), .fetch zip_url] := by
          unfold poll_batch_until_complete
          rw [hlast, List.append_assoc]
          rfl
        obtain ⟨hresult, hfinal⟩ := chunk_of_zip.spec g adapter document_id parser_version zip_url
            ((poll_batch_until_complete g cfg batch_id fuel).final
              (h ++ [upload_call cfg filename document_id, .put upload_url]))
        unfold chunk_of_first
        rw [hresult, hfinal]
        exact .read hplace hn ⟨hbefore, rest, hanswer⟩ hcalls

theorem parse_from_bytes.spec (ht : Ticks g) (hpos : 0 < cfg.poll_interval_s) (h : History)
    {fuel : Nat} (hfuel : limit cfg < fuel) :
    HandedOver g cfg adapter filename document_id parser_version h
      ((parse_from_bytes g cfg adapter filename document_id parser_version fuel).result h)
      ((parse_from_bytes g cfg adapter filename document_id parser_version fuel).final h) := by
  unfold parse_from_bytes
  have hasked : (request_upload_urls g cfg filename (data_id_of document_id)).final h =
      h ++ [upload_call cfg filename document_id] := final_bind_lift _
  cases hanswer : (request_upload_urls g cfg filename (data_id_of document_id)).result h with
  | error e =>
    rw [result_bind_error hanswer, final_bind_error hanswer, hasked]
    refine .no_place ?_
    unfold place
    rw [hanswer]
    rfl
  | ok answer =>
    rw [result_bind hanswer, final_bind hanswer, hasked]
    cases hfirst : first_of answer.2 with
    | error e =>
      refine .no_place ?_
      unfold place
      rw [hanswer]
      dsimp only [bind, Except.bind]
      rw [hfirst]
    | ok upload_url =>
      have hplace : place g cfg filename document_id h = .ok (answer.1, upload_url) := by
        unfold place
        rw [hanswer]
        dsimp only [bind, Except.bind]
        rw [hfirst]
        rfl
      have htwo : h ++ [upload_call cfg filename document_id] ++ [.put upload_url] =
          h ++ [upload_call cfg filename document_id, .put upload_url] := List.append_assoc _ _ _
      have hlift : (lift (.ok upload_url) : Talk PyVal).result
          (h ++ [upload_call cfg filename document_id]) = .ok upload_url := rfl
      have hput : (upload_file_to_url g upload_url).result
          (h ++ [upload_call cfg filename document_id]) =
            read_put (g.put (h ++ [upload_call cfg filename document_id, .put upload_url])) := by
        rw [← htwo]
        rfl
      have hputs : (upload_file_to_url g upload_url).final
          (h ++ [upload_call cfg filename document_id]) =
            h ++ [upload_call cfg filename document_id, .put upload_url] := htwo
      have hstays : (lift (.ok upload_url) : Talk PyVal).final
          (h ++ [upload_call cfg filename document_id]) =
            h ++ [upload_call cfg filename document_id] := rfl
      rw [result_bind hlift, final_bind hlift, hstays]
      cases htaken : read_put (g.put (h ++ [upload_call cfg filename document_id,
          .put upload_url])) with
      | error e =>
        rw [htaken] at hput
        rw [result_bind_error hput, final_bind_error hput, hputs]
        exact .not_taken hplace htaken
      | ok _ =>
        rw [htaken] at hput
        rw [result_bind hput, final_bind hput, hputs]
        exact polled_handover ht hpos h hfuel hplace

/-! ## What a file's parsing did -/

/-- The chunk is one of the document, and has a text. -/
theorem chunk_of_content.gives (content : List (String × String)) :
    Gives (chunk_of_content g adapter document_id parser_version content) fun chunk =>
      PyDict.get chunk "document_id" = .str document_id ∧
        ∃ text, PyDict.get chunk "text" = .str text ∧ text ≠ "" := by
  unfold chunk_of_content
  refine gives_bind fun content_list => ?_
  split
  · rename_i item hitem
    refine gives_pure.2 ⟨rfl, item.text, rfl, fun heq => ?_⟩
    have hblank := List.find?_some hitem
    rw [heq] at hblank
    exact absurd hblank (by decide)
  · split
    · exact gives_error
    · rename_i full_md hmd
      split
      · exact gives_error
      · rename_i hne
        refine gives_pure.2 ⟨rfl, first_chars 5000 full_md, rfl, fun heq => hne ?_⟩
        have hnil : full_md.toList.take 5000 = [] := by
          have hempty := congrArg String.toList heq
          unfold first_chars at hempty
          rwa [String.toList_ofList] at hempty
        cases hchars : full_md.toList with
        | nil => exact String.toList_inj.1 hchars
        | cons c rest =>
          rw [hchars] at hnil
          cases hnil

/-- The calls for a file: it goes to one place at most, what is asked is only
about its own batch, and one zip is read at most, the first that the batch is
done with. -/
structure HandsOver (g : ServiceEnv β) (cfg : MineruApiConfig) (filename document_id : String)
    (h calls : History) : Prop where
  puts : calls.filter is_put = [] ∨ ∃ batch_id upload_url,
    place g cfg filename document_id h = .ok (batch_id, upload_url) ∧
      calls.filter is_put = [.put upload_url]
  asks : ∀ call ∈ calls, is_api call = true → call = upload_call cfg filename document_id ∨
    ∃ batch_id upload_url, place g cfg filename document_id h = .ok (batch_id, upload_url) ∧
      call = status_call cfg (batch_watch g batch_id)
  fetches : calls.filter is_fetch = [] ∨ ∃ batch_id upload_url n zip_url,
    place g cfg filename document_id h = .ok (batch_id, upload_url) ∧
      DoneWith g cfg batch_id (begun cfg filename document_id h upload_url) n zip_url ∧
        calls.filter is_fetch = [.fetch zip_url]
  few : calls.countP is_api ≤ limit cfg + 2

/-- What comes after the rounds of a file asks for its status once at most. -/
theorem handsOver_of_rounds {h : History} {batch_id : String} {upload_url : PyVal} {n : Nat}
    (hplace : place g cfg filename document_id h = .ok (batch_id, upload_url))
    (hn : n ≤ limit cfg) (last : History) (hputs : last.filter is_put = [])
    (hasks : last.filter is_api <+: [status_call cfg (batch_watch g batch_id)])
    (hfetches : last.filter is_fetch = [] ∨ ∃ zip_url,
      DoneWith g cfg batch_id (begun cfg filename document_id h upload_url) n zip_url ∧
        last.filter is_fetch = [.fetch zip_url]) :
    HandsOver g cfg filename document_id h
      ([upload_call cfg filename document_id, .put upload_url, .now] ++
        (asked cfg (batch_watch g batch_id) n ++ last)) where
  puts := by
    refine .inr ⟨batch_id, upload_url, hplace, ?_⟩
    rw [List.filter_append, List.filter_append, filter_asked rfl, hputs]
    rfl
  asks := by
    intro call hin hapi
    rcases List.mem_append.1 hin with hin | hin
    · rcases List.mem_cons.1 hin with rfl | hin
      · exact .inl rfl
      rcases List.mem_cons.1 hin with rfl | hin
      · cases hapi
      · rw [List.mem_singleton.1 hin] at hapi
        cases hapi
    · refine .inr ⟨batch_id, upload_url, hplace, ?_⟩
      rcases List.mem_append.1 hin with hin | hin
      · exact status_of_asked hin hapi
      · exact List.mem_singleton.1 (hasks.mem (List.mem_filter.2 ⟨hin, hapi⟩))
  fetches := by
    rw [List.filter_append, List.filter_append, filter_asked rfl]
    rcases hfetches with hnone | ⟨zip_url, hdone, hzip⟩
    · exact .inl hnone
    · exact .inr ⟨batch_id, upload_url, n, zip_url, hplace, hdone, hzip⟩
  few := by
    have hlast : last.countP is_api ≤ 1 := by
      rw [List.countP_eq_length_filter]
      exact hasks.length_le
    have hfirst : [upload_call cfg filename document_id, .put upload_url, .now].countP is_api = 1 :=
      rfl
    rw [List.countP_append, List.countP_append, api_asked, hfirst]
    omega

theorem begun_calls (h : History) (batch_id : String) (upload_url : PyVal) (n : Nat)
    (last : History) : waited cfg (batch_watch g batch_id)
      (begun cfg filename document_id h upload_url) n ++ last =
        h ++ ([upload_call cfg filename document_id, .put upload_url, .now] ++
          (asked cfg (batch_watch g batch_id) n ++ last)) := by
  unfold begun
  rw [waited_eq, List.append_assoc, List.append_assoc]

/-- The calls of a parsing that ended, and what a chunk is made of. -/
theorem HandedOver.calls {h h' : History} {r : Except PyErr (Option PyDict)}
    (hover : HandedOver g cfg adapter filename document_id parser_version h r h') :
    ∃ calls, h' = h ++ calls ∧ HandsOver g cfg filename document_id h calls ∧
      ∀ found, r = .ok found → ∃ zip_url chunk, calls.getLast? = some (.fetch zip_url) ∧
        chunk_fetched g adapter document_id parser_version h' = .ok chunk ∧ found = some chunk := by
  cases hover with
  | no_place hplace =>
    refine ⟨_, rfl, ⟨.inl rfl, ?_, .inl rfl, ?_⟩, nofun⟩
    · exact fun call hin _ => .inl (List.mem_singleton.1 hin)
    · exact Nat.le_add_left 1 _
  | not_taken hplace hput =>
    refine ⟨_, rfl, ⟨.inr ⟨_, _, hplace, rfl⟩, ?_, .inl rfl, ?_⟩, nofun⟩
    · intro call hin hapi
      rcases List.mem_cons.1 hin with rfl | hin
      · exact .inl rfl
      · rw [List.mem_singleton.1 hin] at hapi
        cases hapi
    · exact Nat.le_add_left 1 _
  | not_done hplace hn hpolled =>
    rcases hpolled.calls with heq | heq
    · rw [heq, begun_calls]
      exact ⟨_, rfl, handsOver_of_rounds hplace hn [.now, status_call cfg (batch_watch g _)] rfl
        (List.prefix_refl _) (.inl rfl), nofun⟩
    · rw [heq, begun_calls]
      exact ⟨_, rfl, handsOver_of_rounds hplace hn [.now] rfl (List.nil_prefix) (.inl rfl), nofun⟩
  | @read batch_id upload_url n zip_url _ hplace hn hdone hcalls =>
    rw [hcalls, begun_calls]
    refine ⟨_, rfl, handsOver_of_rounds hplace hn
      [.now, status_call cfg (batch_watch g batch_id), .fetch zip_url] rfl (List.prefix_refl _)
        (.inr ⟨zip_url, hdone, rfl⟩), fun found hfound => ?_⟩
    cases hchunk : chunk_fetched g adapter document_id parser_version _ with
    | error e =>
      rw [hchunk] at hfound
      cases hfound
    | ok chunk =>
      rw [hchunk] at hfound
      cases hfound
      exact ⟨zip_url, chunk, by rw [List.getLast?_append, List.getLast?_append]; rfl, rfl, rfl⟩

/-- Whatever the service answers and whenever, the file goes to one place at
most, the one that was given for it, nothing is asked but about its own batch,
and a chunk that is returned is one of the document, with a text, made of the
first zip that the batch was done with. -/
theorem file_is_handed_over_once (g : ServiceEnv β) (cfg : MineruApiConfig) (ht : Ticks g)
    (hpos : 0 < cfg.poll_interval_s) (adapter : MineruOfficialApiAdapter)
    (filename document_id : String) (parser_version : Option String) (h : History) {fuel : Nat}
    (hfuel : limit cfg < fuel) : ∃ calls,
      (parse_from_bytes g cfg adapter filename document_id parser_version fuel).final h =
          h ++ calls ∧
        HandsOver g cfg filename document_id h calls ∧
        ∀ found,
          (parse_from_bytes g cfg adapter filename document_id parser_version fuel).result h =
            .ok found → ∃ zip_url chunk, found = some chunk ∧
              calls.getLast? = some (.fetch zip_url) ∧
              chunk_fetched g adapter document_id parser_version (h ++ calls) = .ok chunk ∧
              PyDict.get chunk "document_id" = .str document_id ∧
              ∃ text, PyDict.get chunk "text" = .str text ∧ text ≠ "" := by
  obtain ⟨calls, hfinal, hhands, hchunk⟩ := (parse_from_bytes.spec ht hpos h
    hfuel).calls
  refine ⟨calls, hfinal, hhands, fun found hfound => ?_⟩
  obtain ⟨zip_url, chunk, hlast, hfetched, rfl⟩ := hchunk found hfound
  rw [hfinal] at hfetched
  have hgives : Gives (chunk_fetched g adapter document_id parser_version (h ++ calls)) _ :=
    gives_bind fun content => chunk_of_content.gives content
  exact ⟨zip_url, chunk, rfl, hlast, hfetched, hgives chunk hfetched⟩

def mineru_adapter : MineruOfficialApiAdapter := ⟨"mineru_official", "v1"⟩

/-- The second answer names the zip, whose markdown becomes the chunk. -/
theorem slow_file_is_handed_over : ∃ calls zip_url chunk,
    HandsOver slow_service slow_cfg "bid.pdf" "doc_1" [] calls ∧
      calls.getLast? = some (.fetch zip_url) ∧
      (parse_from_bytes slow_service slow_cfg mineru_adapter "bid.pdf" "doc_1" none 37).result [] =
        .ok (some chunk) ∧
      PyDict.get chunk "document_id" = .str "doc_1" ∧
      (PyDict.get chunk "text").toStr slow_service.env.repr = "# Bid" := by
  have htext : ((parse_from_bytes slow_service slow_cfg mineru_adapter "bid.pdf" "doc_1" none
      37).result []).toOption.map (Option.map fun chunk =>
        (PyDict.get chunk "text").toStr slow_service.env.repr) = some (some "# Bid") := by
    decide +kernel
  obtain ⟨found, hfound, hchunk⟩ := Option.map_eq_some_iff.1 htext
  obtain ⟨calls, -, hhands, hall⟩ := file_is_handed_over_once slow_service slow_cfg
    slow_service.ticks (by decide +kernel) mineru_adapter "bid.pdf" "doc_1" none []
      (show limit slow_cfg < 37 by decide +kernel)
  obtain ⟨zip_url, chunk, rfl, hlast, -, hdocument, -⟩ := hall found (ok_of_toOption hfound)
  exact ⟨calls, zip_url, chunk, hhands, hlast, ok_of_toOption hfound, hdocument,
    Option.some.inj hchunk⟩

end bid_evaluation.mineru_polls
