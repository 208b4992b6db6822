-- The endpoints that go through `run_idempotent`. Its records stand under the
-- tenant and the endpoint, joined by a colon, and under the text of the body.
-- All the same an answer is only ever given again to who got it first.
import BidEvaluation.JsonDumps
import BidEvaluation.RouteLaws

open delimited dict_lib stepwise once_lib bid_evaluation.values bid_evaluation.core
  bid_evaluation.routes bid_evaluation.route_laws bid_evaluation.json_dumps

namespace bid_evaluation.endpoint_laws

/-! ## The endpoints -/

/-- The requests that go through `run_idempotent`, with what their paths name. -/
inductive Endpoint where
  | create_project
  | create_supplier
  | create_rule_pack
  | upload_document
  | parse_document (document_id : String)
  | create_evaluation
  | resume_evaluation (evaluation_id : String)
  | cancel_job (job_id : String)
  | requeue_dlq_item (item_id : String)
  | discard_dlq_item (item_id : String)

namespace Endpoint

def text : Endpoint → String
  | create_project => "POST:/api/v1/projects"
  | create_supplier => "POST:/api/v1/suppliers"
  | create_rule_pack => "POST:/api/v1/rules"
  | upload_document => "POST:/api/v1/documents/upload"
  | parse_document document_id => "POST:/api/v1/documents/" ++ document_id ++ "/parse"
  | create_evaluation => "POST:/api/v1/evaluations"
  | resume_evaluation evaluation_id => resume_endpoint evaluation_id
  | cancel_job job_id => "POST:/api/v1/jobs/" ++ job_id ++ "/cancel"
  | requeue_dlq_item item_id => "POST:/api/v1/dlq/items/" ++ item_id ++ "/requeue"
  | discard_dlq_item item_id => "POST:/api/v1/dlq/items/" ++ item_id ++ "/discard"

def segments : Endpoint → List String
  | create_project => ["api", "v1", "projects"]
  | create_supplier => ["api", "v1", "suppliers"]
  | create_rule_pack => ["api", "v1", "rules"]
  | upload_document => ["api", "v1", "documents", "upload"]
  | parse_document document_id => ["api", "v1", "documents", document_id, "parse"]
  | create_evaluation => ["api", "v1", "evaluations"]
  | resume_evaluation evaluation_id => ["api", "v1", "evaluations", evaluation_id, "resume"]
  | cancel_job job_id => ["api", "v1", "jobs", job_id, "cancel"]
  | requeue_dlq_item item_id => ["api", "v1", "dlq", "items", item_id, "requeue"]
  | discard_dlq_item item_id => ["api", "v1", "dlq", "items", item_id, "discard"]

/-- A parameter of a path is one segment of it. -/
def Routed (e : Endpoint) : Prop := ∀ segment ∈ e.segments, ∀ c ∈ segment.toList, c ≠ '/'

/-- The text of an endpoint that names something. -/
theorem toList_between {start stop name : String} (before : List String)
    (hstart : start.toList = "POST:".toList ++ path '/' (before.map String.toList) ++ ['/'])
    (hstop : stop.toList = '/' :: name.toList) (id : String) :
    (start ++ id ++ stop).toList =
      "POST:".toList ++ path '/' ((before ++ [id, name]).map String.toList) := by
  rw [String.toList_append, String.toList_append, hstart, hstop, List.map_append, path_append]
  simp only [path, List.map_cons, List.map_nil, List.flatMap_cons, List.flatMap_nil,
    List.append_assoc, List.cons_append, List.nil_append, List.append_nil]

theorem toList_text (e : Endpoint) :
    e.text.toList = "POST:".toList ++ path '/' (e.segments.map String.toList) := by
  cases e with
  | parse_document document_id =>
    exact toList_between ["api", "v1", "documents"] (by decide +kernel) (by decide +kernel)
      document_id
  | resume_evaluation evaluation_id =>
    exact toList_between ["api", "v1", "evaluations"] (by decide +kernel) (by decide +kernel)
      evaluation_id
  | cancel_job job_id =>
    exact toList_between ["api", "v1", "jobs"] (by decide +kernel) (by decide +kernel) job_id
  | requeue_dlq_item item_id =>
    exact toList_between ["api", "v1", "dlq", "items"] (by decide +kernel) (by decide +kernel)
      item_id
  | discard_dlq_item item_id =>
    exact toList_between ["api", "v1", "dlq", "items"] (by decide +kernel) (by decide +kernel)
      item_id
  | _ => decide +kernel

theorem segments_injective {e e' : Endpoint} (h : e.segments = e'.segments) : e = e' := by
  cases e <;> cases e' <;> simp_all [segments]

/-- The segments of an endpoint: two of the version, and at least one more. -/
theorem segments_start (e : Endpoint) :
    ∃ third rest, e.segments = "api" :: "v1" :: third :: rest := by
  cases e <;> exact ⟨_, _, rfl⟩

theorem segments_length (e : Endpoint) : e.segments.length ≤ 6 := by
  cases e <;> simp [segments]

/-- They do not start a second time. -/
theorem starts_once {e : Endpoint} {more rest : List String} {third : String}
    (h : e.segments = more ++ "api" :: "v1" :: third :: rest) : more = [] := by
  have hlength := e.segments_length
  rw [h] at hlength
  simp only [List.length_append, List.length_cons] at hlength
  rcases more with _ | ⟨s₁, _ | ⟨s₂, _ | ⟨s₃, _ | ⟨s₄, more⟩⟩⟩⟩
  · rfl
  · cases e <;> simp [segments] at h
  · cases e <;> simp [segments] at h
  · cases e <;> simp [segments] at h
  · simp only [List.length_cons] at hlength
    omega

end Endpoint

/-- The tenant and the endpoint are told from the scope. -/
theorem scope_told {tenant_id tenant_id' : String} {e e' : Endpoint} (he : e.Routed)
    (he' : e'.Routed)
    (h : idempotency_scope tenant_id e.text = idempotency_scope tenant_id' e'.text) :
    tenant_id = tenant_id' ∧ e = e' := by
  have hplain : ∀ {e : Endpoint}, e.Routed →
      ∀ segment ∈ e.segments.map String.toList, ∀ c ∈ segment, c ≠ '/' := by
    intro e he segment hsegment
    obtain ⟨s, hs, rfl⟩ := List.mem_map.1 hsegment
    exact he s hs
  have htext : (tenant_id ++ ":POST:").toList ++ path '/' (e.segments.map String.toList) =
      (tenant_id' ++ ":POST:").toList ++ path '/' (e'.segments.map String.toList) := by
    have hlist := congrArg String.toList h
    unfold idempotency_scope at hlist
    simp only [String.toList_append, Endpoint.toList_text] at hlist
    simpa using hlist
  -- The shorter one of the two paths ends the other, so it is all of it.
  have hshort : ∀ {e e' : Endpoint} {more : List (List Char)},
      e'.segments.map String.toList = more ++ e.segments.map String.toList → more = [] := by
    intro e e' more hmore
    obtain ⟨third, rest, hstart⟩ := e.segments_start
    have hmore' : e'.segments = more.map String.ofList ++ "api" :: "v1" :: third :: rest := by
      have hback := congrArg (List.map String.ofList) hmore
      rw [List.map_append, List.map_map, List.map_map, hstart] at hback
      simpa using hback
    exact List.map_eq_nil_iff.1 (Endpoint.starts_once hmore')
  have hlists : Function.Injective (List.map String.toList) :=
    List.map_injective_iff.2 fun _ _ => String.toList_injective
  rcases path_told (hplain he) (hplain he') htext with ⟨more, hmore, hstart⟩ | ⟨more, hmore, hstart⟩
  · obtain rfl := hshort hmore
    have htenant := String.toList_inj.1 (hstart.trans (List.append_nil _))
    exact ⟨(String.append_left_inj _).1 htenant, (Endpoint.segments_injective (hlists hmore)).symm⟩
  · obtain rfl := hshort hmore
    have htenant := String.toList_inj.1 (hstart.trans (List.append_nil _))
    exact ⟨((String.append_left_inj _).1 htenant).symm, Endpoint.segments_injective (hlists hmore)⟩

/-! ## Calls -/

/-- A call of a route: its path has been taken apart at the slashes. -/
structure ClientCall where
  tenant_id : String
  endpoint : Endpoint
  routed : endpoint.Routed
  idempotency_key : String
  payload : PyDict
  execute : Act PyDict

def ClientCall.call (c : ClientCall) : IdempotentCall :=
  ⟨c.endpoint.text, c.tenant_id, c.idempotency_key, c.payload, c.execute⟩

/-- The calls of one tenant to one endpoint with one key. -/
structure Own (c c' : ClientCall) : Prop where
  tenant : c.tenant_id = c'.tenant_id
  endpoint : c.endpoint = c'.endpoint
  key : c.idempotency_key = c'.idempotency_key

theorem key_iff {c c' : ClientCall} : c.call.key = c'.call.key ↔ Own c c' := by
  constructor
  · intro h
    have hscope : idempotency_scope c.tenant_id c.endpoint.text =
        idempotency_scope c'.tenant_id c'.endpoint.text := congrArg Prod.fst h
    obtain ⟨htenant, hendpoint⟩ := scope_told c.routed c'.routed hscope
    exact ⟨htenant, hendpoint, congrArg Prod.snd h⟩
  · rintro ⟨htenant, hendpoint, hkey⟩
    unfold ClientCall.call IdempotentCall.key
    dsimp only
    rw [htenant, hendpoint, hkey]

/-! ## Runs -/

variable {env : Env} {w : World}

/-- The service after these calls, and what it has executed. -/
def served (env : Env) (w : World) (calls : List ClientCall) : Watched :=
  afterCalls env w (calls.map ClientCall.call)

/-- This call was executed in the run, and returned this. -/
def ReturnedIn (env : Env) (w : World) (calls : List ClientCall) (c : ClientCall) (data : PyDict) :
    Prop :=
  ∃ before later, calls = before ++ c :: later ∧
    Executes env (served env w before) c.call (.ok data)

theorem served_concat (calls : List ClientCall) (c : ClientCall) :
    served env w (calls ++ [c]) = (run_call env c.call).final (served env w calls) := by
  unfold served
  rw [List.map_append, List.map_cons, List.map_nil, afterCalls_cons]
  rfl

theorem ReturnedIn.later {calls : List ClientCall} {c : ClientCall} {data : PyDict}
    (h : ReturnedIn env w calls c data) (c' : ClientCall) :
    ReturnedIn env w (calls ++ [c']) c data := by
  obtain ⟨before, later, rfl, hexecutes⟩ := h
  exact ⟨before, later ++ [c'], by simp, hexecutes⟩

/-- A record was made by the execution of a call. -/
def Recorded (env : Env) (w : World) (calls : List ClientCall) : Prop :=
  ∀ key record, (served env w calls).records.get? key = some record →
    ∃ c, ReturnedIn env w calls c record.data ∧ c.call.key = key ∧
      record.fingerprint = fingerprint env c.payload

theorem recorded_concat {calls : List ClientCall} (h : Recorded env w calls) (c : ClientCall) :
    Recorded env w (calls ++ [c]) := by
  intro key record hfound
  have hstays : (served env w calls).records.get? key = some record →
      ∃ first, ReturnedIn env w (calls ++ [c]) first record.data ∧ first.call.key = key ∧
        record.fingerprint = fingerprint env first.payload := by
    intro hold
    obtain ⟨first, hreturned, hkey, hprint⟩ := h key record hold
    exact ⟨first, hreturned.later c, hkey, hprint⟩
  rw [served_concat] at hfound
  cases hfree : (served env w calls).records.get? c.call.key with
  | some other =>
    rw [(later_call_is_served other hfree).1] at hfound
    exact hstays hfound
  | none =>
    have hexecutes : Executes env (served env w calls) c.call
        (c.call.execute.result (served env w calls).rest.1) := executes_of_free hfree
    cases hending : c.call.execute.result (served env w calls).rest.1 with
    | error e =>
      rw [hending] at hexecutes
      obtain ⟨-, -, hrecords⟩ := executed hexecutes
      rw [hrecords] at hfound
      exact hstays hfound
    | ok data =>
      rw [hending] at hexecutes
      obtain ⟨-, -, hrecords⟩ := executed hexecutes
      rw [hrecords, Dict.get?_set] at hfound
      split at hfound
      · rename_i hkey
        obtain rfl := Option.some.inj hfound
        exact ⟨c, ⟨calls, [], rfl, hexecutes⟩, hkey.symm, rfl⟩
      · exact hstays hfound

theorem recorded (env : Env) (w : World) (calls : List ClientCall) : Recorded env w calls := by
  induction calls using List.reverseRecOn with
  | nil =>
    intro key record hfound
    cases hfound
  | append_singleton calls c ih => exact recorded_concat ih c

/-- What a call returned is still on record. -/
theorem ReturnedIn.found {calls : List ClientCall} {c : ClientCall} {data : PyDict}
    (h : ReturnedIn env w calls c data) :
    (served env w calls).records.get? c.call.key = some ⟨fingerprint env c.payload, data⟩ := by
  obtain ⟨before, later, rfl, hexecutes⟩ := h
  obtain ⟨-, -, hrecords⟩ := executed hexecutes
  have hfound : ((run_call env c.call).final (served env w before)).records.get? c.call.key =
      some ⟨fingerprint env c.payload, data⟩ := by
    rw [hrecords]
    exact Dict.get?_set_self _ _ _
  unfold served
  rw [List.map_append, List.map_cons, afterCalls_cons]
  exact found_serves _ _ hfound

/-! ## The law -/

/-- How a call is answered after these calls. -/
inductive Answers (env : Env) (w : World) (calls : List ClientCall) (c : ClientCall) : Prop where
  | executed (alone : ∀ first data, Own c first → ¬ ReturnedIn env w calls first data)
      (result : (run_call env c.call).result (served env w calls) =
        c.execute.result (served env w calls).rest.1)
  | replayed (first : ClientCall) (data : PyDict) (own : Own c first)
      (returned : ReturnedIn env w calls first data)
      (same : Same (.dict c.payload) (.dict first.payload))
      (result : (run_call env c.call).result (served env w calls) = .ok data)
      (stays : (run_call env c.call).final (served env w calls) = served env w calls)
  | refused (first : ClientCall) (data : PyDict) (own : Own c first)
      (returned : ReturnedIn env w calls first data)
      (other : ¬ Same (.dict c.payload) (.dict first.payload))
      (result : (run_call env c.call).result (served env w calls) = .error idempotency_conflict)
      (stays : (run_call env c.call).final (served env w calls) = served env w calls)

/-- Whatever tenants, endpoints, keys and bodies were called before, a call is
answered from the record of its own tenant, endpoint and key: again with the
data if the bodies are the same JSON, with a conflict if they are not. With no
such record it is executed. -/
theorem answers_are_ones_own (hf : FloatTexts env) (w : World) (calls : List ClientCall)
    (c : ClientCall) : Answers env w calls c := by
  cases hfound : (served env w calls).records.get? c.call.key with
  | none =>
    refine .executed (fun first data hown hreturned => ?_) ?_
    · have hkey := key_iff.2 hown
      rw [hkey, hreturned.found] at hfound
      cases hfound
    · have hexecutes : Executes env (served env w calls) c.call
          (c.call.execute.result (served env w calls).rest.1) := executes_of_free hfound
      exact (executed hexecutes).1
  | some record =>
    obtain ⟨first, hreturned, hkey, hprint⟩ := recorded env w calls _ _ hfound
    have hown : Own c first := key_iff.1 hkey.symm
    obtain ⟨hstays, hresult⟩ := later_call_is_served record hfound
    have hbody : fingerprint env c.call.payload = record.fingerprint ↔
        Same (.dict c.payload) (.dict first.payload) := by
      rw [hprint]
      exact dumps_eq_iff hf
    by_cases hsame : Same (.dict c.payload) (.dict first.payload)
    · rw [if_pos (hbody.2 hsame)] at hresult
      exact .replayed first record.data hown hreturned hsame hresult hstays
    · rw [if_neg (mt hbody.1 hsame)] at hresult
      exact .refused first record.data hown hreturned hsame hresult hstays

theorem create_project_routed : Endpoint.create_project.Routed := by
  intro segment hsegment
  simp only [Endpoint.segments, List.mem_cons, List.not_mem_nil, or_false] at hsegment
  rcases hsegment with rfl | rfl | rfl
  all_goals decide

def project_call (payload : PyDict) : ClientCall where
  tenant_id := "tenant"
  endpoint := .create_project
  routed := create_project_routed
  idempotency_key := "key"
  payload := payload
  execute := pure []

def first_call : ClientCall := project_call [("name", .str "Road"), ("ruleset_version", .int 1)]

def second_call : ClientCall := project_call [("ruleset_version", .int 1), ("name", .str "Road")]

/-- The body of the retry has its keys in another order. -/
theorem reordered_body_is_replayed :
    ∃ data, (run_call fraction_env second_call.call).result
        (served fraction_env World.start [first_call]) = .ok data ∧
      (run_call fraction_env second_call.call).final
        (served fraction_env World.start [first_call]) =
          served fraction_env World.start [first_call] := by
  have hown : Own second_call first_call := ⟨rfl, rfl, rfl⟩
  have hreturned : ReturnedIn fraction_env World.start [first_call] first_call [] :=
    ⟨[], [], rfl, executes_of_free rfl⟩
  cases answers_are_ones_own fraction_texts World.start [first_call] second_call with
  | executed alone result => exact absurd hreturned (alone first_call [] hown)
  | replayed first data own returned same result stays => exact ⟨data, result, stays⟩
  | refused first data own returned other result stays =>
    obtain ⟨before, later, hcalls, -⟩ := returned
    have hin : first ∈ [first_call] := hcalls ▸ List.mem_append_right _ List.mem_cons_self
    obtain rfl := List.mem_singleton.1 hin
    exact absurd ((dumps_eq_iff fraction_texts).1 (by decide +kernel)) other

end bid_evaluation.endpoint_laws
