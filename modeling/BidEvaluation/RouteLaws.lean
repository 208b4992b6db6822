-- The laws of the requests that go through `run_idempotent`. One key runs
-- its execution once. But an upload and a parse request put their trace id
-- into the fingerprint, so a client that retries gets a conflict.
import BidEvaluation.Routes
import BidEvaluation.Endings

open dict_lib stepwise once_lib json_text bid_evaluation.values bid_evaluation.core
  bid_evaluation.store_ops bid_evaluation.store_workflow bid_evaluation.store_parse
  bid_evaluation.operations bid_evaluation.routes

namespace bid_evaluation.route_laws

variable {env : Env}

/-! ## A history of calls -/

structure IdempotentCall where
  endpoint : String
  tenant_id : String
  idempotency_key : String
  payload : PyDict
  execute : Act PyDict

def IdempotentCall.key (c : IdempotentCall) : String × String :=
  (idempotency_scope c.tenant_id c.endpoint, c.idempotency_key)

abbrev Watched : Type := History (String × String) String PyDict World PyErr

/-- The call as the log of executions knows it. -/
def entry (env : Env) (c : IdempotentCall) :
    once_lib.Call (String × String) String PyDict World PyErr :=
  ⟨c.key, fingerprint env c.payload, c.execute⟩

/-- One call. Its `execute` also notes in the log that it has ended. -/
def run_call (env : Env) (c : IdempotentCall) :
    Prog Watched PyErr PyDict :=
  run_idempotent env c.endpoint c.tenant_id c.idempotency_key c.payload (watched (entry env c))

def afterCalls (env : Env) (w : World) (calls : List IdempotentCall) : Watched :=
  calls.foldl (fun h c => (run_call env c).final h) (Ledger.start (w, []))

/-- Every execution that was made, first to last. -/
def executions (h : Watched) : List (Execution (String × String) String PyDict World PyErr) :=
  h.rest.2

theorem final_run_call (h : Watched) (c : IdempotentCall) :
    (run_call env c).final h = serve idempotency_conflict h (entry env c) := rfl

theorem result_run_call (h : Watched) (c : IdempotentCall) :
    (run_call env c).result h = answer idempotency_conflict h (entry env c) := rfl

theorem afterCalls_eq (w : World) (calls : List IdempotentCall) :
    afterCalls env w calls = served idempotency_conflict w (calls.map (entry env)) := by
  unfold afterCalls served
  rw [List.foldl_map]
  rfl

theorem afterCalls_append (w : World) (calls later : List IdempotentCall) :
    afterCalls env w (calls ++ later) =
      (later.map (entry env)).foldl (serve idempotency_conflict) (afterCalls env w calls) := by
  rw [afterCalls_eq, afterCalls_eq, List.map_append, served_append]

theorem afterCalls_cons (w : World) (calls later : List IdempotentCall) (c : IdempotentCall) :
    afterCalls env w (calls ++ c :: later) =
      (later.map (entry env)).foldl (serve idempotency_conflict)
        ((run_call env c).final (afterCalls env w calls)) := by
  rw [afterCalls_append, List.map_cons, List.foldl_cons, final_run_call]

/-- The call was executed in this state, and ended so. -/
def Executes (env : Env) (h : Watched) (c : IdempotentCall) (ending : Except PyErr PyDict) :
    Prop :=
  executions ((run_call env c).final h) = executions h ++ [⟨entry env c, ending⟩]

theorem not_executes_of_stays {h : Watched} {c : IdempotentCall} {ending : Except PyErr PyDict}
    (hstays : (run_call env c).final h = h) : ¬ Executes env h c ending := by
  intro hx
  unfold Executes at hx
  rw [hstays] at hx
  have hlength := congrArg List.length hx
  simp at hlength

/-- An execution answers for its call, and is written down when it returned. -/
theorem executed {h : Watched} {c : IdempotentCall} {ending : Except PyErr PyDict}
    (hx : Executes env h c ending) :
    (run_call env c).result h = ending ∧ h.records.get? c.key = none ∧
      ((run_call env c).final h).records =
        match ending with
        | .ok data => h.records.set c.key ⟨fingerprint env c.payload, data⟩
        | .error _ => h.records := by
  have hserves := serves idempotency_conflict h (entry env c)
  rw [result_run_call, final_run_call]
  cases hserves with
  | replayed record found same result stays => exact absurd hx (not_executes_of_stays stays)
  | refused record found other result stays => exact absurd hx (not_executes_of_stays stays)
  | returned data free ended result becomes =>
    have hending : Except.ok data = ending := by
      unfold Executes executions at hx
      rw [final_run_call, becomes] at hx
      simpa using hx
    subst hending
    rw [becomes, result]
    exact ⟨rfl, free, rfl⟩
  | raised e free ended result becomes =>
    have hending : Except.error e = ending := by
      unfold Executes executions at hx
      rw [final_run_call, becomes] at hx
      simpa using hx
    subst hending
    rw [becomes, result]
    exact ⟨rfl, free, rfl⟩

theorem executes_of_free {h : Watched} {c : IdempotentCall}
    (hfree : h.records.get? c.key = none) :
    Executes env h c (c.execute.result h.rest.1) := by
  have hserves := serves idempotency_conflict h (entry env c)
  unfold Executes executions
  rw [final_run_call]
  cases hserves with
  | replayed record found same result stays =>
    exact absurd (hfree.symm.trans found) (by simp)
  | refused record found other result stays =>
    exact absurd (hfree.symm.trans found) (by simp)
  | returned data free ending result becomes =>
    have hend : c.execute.result h.rest.1 = .ok data := ending
    rw [becomes, hend]
  | raised e free ending result becomes =>
    have hend : c.execute.result h.rest.1 = .error e := ending
    rw [becomes, hend]

theorem noted_afterCalls (w : World) (calls : List IdempotentCall) :
    Noted (afterCalls env w calls) := by
  rw [afterCalls_eq]
  exact noted_served _ _ _

/-- How many executions of a key have returned. -/
def returnsOf (h : Watched) (key : String × String) : Nat :=
  (executions h).countP (fun x => x.call.key = key ∧ x.ending.isOk)

theorem returnsOf_eq (h : Watched) (key : String × String) :
    returnsOf h key = (returnedOf h key).length := by
  unfold returnsOf returnedOf
  rw [List.length_filterMap_eq_countP]
  apply List.countP_congr
  intro x _
  unfold recordOf
  cases x.ending with
  | error e => simp [Except.isOk, Except.toBool]
  | ok data => by_cases hkey : x.call.key = key <;> simp [hkey, Except.isOk, Except.toBool]

theorem one_execution_returns (w : World) (calls : List IdempotentCall) (key : String × String) :
    returnsOf (afterCalls env w calls) key ≤ 1 := by
  rw [returnsOf_eq, noted_afterCalls w calls key]
  cases (afterCalls env w calls).records.get? key <;> simp

/-- A call after the execution of its key. -/
theorem later_call_is_served {h : Watched} {c' : IdempotentCall} (record : Record String PyDict)
    (hfound : h.records.get? c'.key = some record) :
    (run_call env c').final h = h ∧
      (run_call env c').result h =
        if fingerprint env c'.payload = record.fingerprint then .ok record.data
        else .error idempotency_conflict := by
  rw [final_run_call, result_run_call]
  cases serves idempotency_conflict h (entry env c') with
  | replayed record' found same result stays =>
    have heq : record' = record := Option.some.inj (found.symm.trans hfound)
    rw [heq] at same result
    have hsame : fingerprint env c'.payload = record.fingerprint := same.symm
    rw [if_pos hsame]
    exact ⟨stays, result⟩
  | refused record' found other result stays =>
    have heq : record' = record := Option.some.inj (found.symm.trans hfound)
    rw [heq] at other
    have hother : fingerprint env c'.payload ≠ record.fingerprint := fun h => other h.symm
    rw [if_neg hother]
    exact ⟨stays, result⟩
  | returned data free ending result becomes => exact absurd (hfound.symm.trans free) (by simp)
  | raised e free ending result becomes => exact absurd (hfound.symm.trans free) (by simp)

/-- A key with no execution that returned is free. -/
theorem free_of_no_return {w : World} {calls : List IdempotentCall} {key : String × String}
    (h : returnsOf (afterCalls env w calls) key = 0) :
    (afterCalls env w calls).records.get? key = none := by
  rw [returnsOf_eq, noted_afterCalls w calls key] at h
  cases hfound : (afterCalls env w calls).records.get? key with
  | none => rfl
  | some record =>
    rw [hfound] at h
    cases h

/-! ## Requests of a client -/

inductive DocumentRequest where
  | upload (form : UploadForm)
  | parse (document_id : String)

def DocumentRequest.endpoint : DocumentRequest → String
  | .upload _ => "POST:/api/v1/documents/upload"
  | .parse document_id => "POST:/api/v1/documents/" ++ document_id ++ "/parse"

/-- The payload that the route fingerprints. -/
def DocumentRequest.payload (request : DocumentRequest) (trace_id tenant_id : String) : PyDict :=
  match request with
  | .upload form => upload_dict (upload_payload form trace_id tenant_id)
  | .parse document_id => parse_dict document_id trace_id tenant_id

def DocumentRequest.execute (env : Env) (request : DocumentRequest)
    (trace_id tenant_id : String) : Act PyDict :=
  match request with
  | .upload form => upload_data env (upload_payload form trace_id tenant_id)
  | .parse document_id => parse_data env document_id trace_id tenant_id

/-- The client sends the request with this trace. -/
def send (env : Env) (strict : Bool) (client : Client) (request : DocumentRequest)
    (trace : Trace) : Serve :=
  match request with
  | .upload form => upload_document env strict client form trace
  | .parse document_id => parse_document env strict client document_id trace

theorem send_eq (strict : Bool) (client : Client) (request : DocumentRequest) (trace : Trace) :
    send env strict client request trace = (do
      let trace_id ← lift (add_trace_id strict trace)
      let idempotency_key ← lift (require_idempotency_key client)
      run_idempotent env request.endpoint client.tenant_id idempotency_key
        (request.payload trace_id client.tenant_id)
        (request.execute env trace_id client.tenant_id)) := by
  cases request <;> rfl

/-- Two traces of one request have different fingerprints. -/
theorem trace_of_fingerprint {request : DocumentRequest} {tenant_id t t' : String}
    (h : fingerprint env (request.payload t tenant_id) =
      fingerprint env (request.payload t' tenant_id)) : t = t' := by
  unfold fingerprint at h
  cases request with
  | upload form =>
    simp [DocumentRequest.payload, upload_dict, upload_payload, dumps, dumpsMembers, sort_keys,
      List.orderedInsert, commaJoin, memberText, String.append_assoc] at h
    exact stringText_injective h
  | parse document_id =>
    simp [DocumentRequest.payload, parse_dict, dumps, dumpsMembers, sort_keys,
      List.orderedInsert, commaJoin, memberText, String.append_assoc] at h
    exact stringText_injective h

/-- The request of this trace id has been answered with this data. -/
def Answered (env : Env) (client : Client) (request : DocumentRequest) (trace_id : String)
    (data : PyDict) (s : Api) : Prop :=
  ∃ key, require_idempotency_key client = .ok key ∧
    s.records.get? (idempotency_scope client.tenant_id request.endpoint, key) =
      some ⟨fingerprint env (request.payload trace_id client.tenant_id), data⟩

theorem send_answers {strict : Bool} {client : Client} {request : DocumentRequest} {trace : Trace}
    {data : PyDict} {s : Api} (h : (send env strict client request trace).result s = .ok data) :
    ∃ trace_id, add_trace_id strict trace = .ok trace_id ∧
      Answered env client request trace_id data
        ((send env strict client request trace).final s) := by
  rw [send_eq] at h ⊢
  rcases htrace : add_trace_id strict trace with e | trace_id
  · rw [htrace] at h
    cases h
  rcases hkey : require_idempotency_key client with e | key
  · rw [htrace, hkey] at h
    cases h
  rw [htrace, hkey] at h
  exact ⟨trace_id, rfl, key, hkey, once_recorded h⟩

/-- A request after the first answer. -/
theorem send_again {client : Client} {request : DocumentRequest} {trace_id : String}
    {data : PyDict} {s : Api} (strict : Bool) (trace : Trace)
    (h : Answered env client request trace_id data s) :
    (send env strict client request trace).final s = s ∧
      ((send env strict client request trace).result s = .ok data ↔
        add_trace_id strict trace = .ok trace_id) := by
  obtain ⟨key, hkey, hfound⟩ := h
  rw [send_eq, hkey]
  rcases htrace : add_trace_id strict trace with e | trace_id'
  · have hresult : (lift (.error e) >>= fun trace_id => (do
        let idempotency_key ← lift (.ok key)
        run_idempotent env request.endpoint client.tenant_id idempotency_key
          (request.payload trace_id client.tenant_id)
          (request.execute env trace_id client.tenant_id)) : Serve).result s = .error e := rfl
    rw [hresult]
    exact ⟨rfl, by simp⟩
  · by_cases hsame : trace_id = trace_id'
    · subst hsame
      obtain ⟨hresult, hfinal⟩ := once_replayed idempotency_conflict
        (request.execute env trace_id client.tenant_id) hfound rfl
      exact ⟨hfinal, fun _ => rfl, fun _ => hresult⟩
    · have hother : fingerprint env (request.payload trace_id client.tenant_id) ≠
          fingerprint env (request.payload trace_id' client.tenant_id) := by
        intro heq
        exact hsame (trace_of_fingerprint heq)
      obtain ⟨hresult, hfinal⟩ := once_refused idempotency_conflict
        (request.execute env trace_id' client.tenant_id) hfound hother
      refine ⟨hfinal, fun hok => ?_, fun heq => ?_⟩
      · exact absurd (hresult.symm.trans hok) (by simp)
      · exact absurd (Except.ok.inj heq).symm hsame

/-- Each repetition in turn returns the data and leaves the documents and the
jobs as they are. -/
def Replays (env : Env) (strict : Bool) (client : Client) (request : DocumentRequest)
    (data : PyDict) : Api → List Trace → Prop
  | _, [] => True
  | s, trace :: rest =>
    ((send env strict client request trace).result s = .ok data ∧
      ((send env strict client request trace).final s).rest.store.documents =
        s.rest.store.documents ∧
      ((send env strict client request trace).final s).rest.store.jobs = s.rest.store.jobs) ∧
    Replays env strict client request data ((send env strict client request trace).final s) rest

theorem replays_iff {client : Client} {request : DocumentRequest} {trace_id : String}
    {data : PyDict} {s : Api} (strict : Bool) (repeats : List Trace)
    (h : Answered env client request trace_id data s) :
    Replays env strict client request data s repeats ↔
      ∀ trace ∈ repeats, add_trace_id strict trace = .ok trace_id := by
  induction repeats with
  | nil => simp [Replays]
  | cons trace rest ih =>
    obtain ⟨hfinal, hresult⟩ := send_again strict trace h
    rw [Replays, hfinal, hresult, ih]
    simp

/-! ## The laws -/

/-- Once a document request has an answer, its repetitions get the same
answer exactly when each has the same trace id as the first. -/
theorem retries_replay_iff_same_trace (env : Env) (strict : Bool) (client : Client)
    (request : DocumentRequest) (first : Trace) (repeats : List Trace) (s : Api) (data : PyDict)
    (h : (send env strict client request first).result s = .ok data) :
    Replays env strict client request data
        ((send env strict client request first).final s) repeats ↔
      ∀ trace ∈ repeats, add_trace_id strict trace = add_trace_id strict first := by
  obtain ⟨trace_id, htrace, hanswered⟩ := send_answers h
  rw [replays_iff strict repeats hanswered, htrace]

def some_client : Client := ⟨"tenant", some "key"⟩

def bid_upload : DocumentRequest := .upload ⟨"project", "supplier", "bid", "bid.pdf", "sha", 1⟩

def no_records : Api := Ledger.start World.start

theorem answer_of_isOk {m : Serve} {s : Api} (h : (m.result s).isOk = true) :
    ∃ data, m.result s = .ok data := by
  rcases hresult : m.result s with e | data
  · rw [hresult] at h
    cases h
  · exact ⟨data, rfl⟩

/-- The client sends its own trace id each time. -/
theorem named_trace_is_replayed :
    ∃ data, (send calm_env false some_client bid_upload ⟨some "trace", "aa"⟩).result no_records =
        .ok data ∧
      Replays calm_env false some_client bid_upload data
        ((send calm_env false some_client bid_upload ⟨some "trace", "aa"⟩).final no_records)
        [⟨some "trace", "ab"⟩, ⟨some " trace ", "ac"⟩] := by
  have hok : ((send calm_env false some_client bid_upload ⟨some "trace", "aa"⟩).result
      no_records).isOk = true := by decide +kernel
  obtain ⟨data, hdata⟩ := answer_of_isOk hok
  refine ⟨data, hdata, ?_⟩
  refine (retries_replay_iff_same_trace calm_env false some_client bid_upload _ _ _ _ hdata).2 ?_
  intro trace htrace
  simp only [List.mem_cons, List.not_mem_nil, or_false] at htrace
  rcases htrace with rfl | rfl
  · rfl
  · decide +kernel

/-- The client sends no trace id, and the retry is a conflict. -/
theorem retry_without_trace_is_refused :
    ∃ data, (send calm_env false some_client bid_upload ⟨none, "aa"⟩).result no_records =
        .ok data ∧
      ¬ Replays calm_env false some_client bid_upload data
        ((send calm_env false some_client bid_upload ⟨none, "aa"⟩).final no_records)
        [⟨none, "ab"⟩] := by
  have hok : ((send calm_env false some_client bid_upload ⟨none, "aa"⟩).result
      no_records).isOk = true := by decide +kernel
  obtain ⟨data, hdata⟩ := answer_of_isOk hok
  refine ⟨data, hdata, ?_⟩
  intro hreplays
  have hagain := hreplays.1.1
  have hrefused : ((send calm_env false some_client bid_upload ⟨none, "ab"⟩).result
      ((send calm_env false some_client bid_upload ⟨none, "aa"⟩).final no_records)).isOk =
      false := by decide +kernel
  rw [hagain] at hrefused
  cases hrefused

end bid_evaluation.route_laws
