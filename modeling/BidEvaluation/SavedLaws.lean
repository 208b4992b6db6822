-- The law of the saved records: a request that was answered once keeps its
-- answer, however often the process stops and comes up again.
import BidEvaluation.SavedRecords

open dict_lib stepwise once_lib crash_lib bid_evaluation.values bid_evaluation.core
  bid_evaluation.operations bid_evaluation.routes bid_evaluation.restarts
  bid_evaluation.json_dumps bid_evaluation.endpoint_laws bid_evaluation.saved_records
open bid_evaluation.snapshots (json_round_trip)
open bid_evaluation.snapshot_laws (canonical canon_eq_json json_round_trip_twice)

namespace bid_evaluation.saved_laws

variable {env : Env} {α : Type}

/-- The call as it runs in memory. -/
def inner (env : Env) (c : ClientCall) : Prog Api PyErr PyDict :=
  routes.run_idempotent env c.endpoint.text c.tenant_id c.idempotency_key c.payload c.execute

/-! ## Records only grow -/

/-- The records that are there stay as they are. -/
def Grows (a b : Records) : Prop :=
  ∀ key record, a.get? key = some record → b.get? key = some record

theorem Grows.refl (a : Records) : Grows a a := fun _ _ h => h

theorem grows_set {a : Records} {key : String × String} (h : a.get? key = none)
    (record : Record String PyDict) : Grows a (a.set key record) := by
  intro other old hold
  have hne : other ≠ key := by
    rintro rfl
    rw [h] at hold
    cases hold
  rw [Dict.get?_set_of_ne _ _ hne]
  exact hold

abbrev GrowsApi (a b : Api) : Prop := Grows a.records b.records

theorem on_rest.spec (m : Prog World PyErr α) (s : Api) :
    Meets GrowsApi (on_rest m) s (fun _ t => t.records = s.records) := by
  constructor
  · have hsteps : ∀ (l : List World) (a : Api), a.records = s.records →
        Steps GrowsApi a (l.map fun t => { s with rest := t }) := by
      intro l
      induction l with
      | nil => exact fun _ _ => trivial
      | cons w rest ih =>
        intro a ha
        refine ⟨?_, ih _ rfl⟩
        show Grows a.records s.records
        rw [ha]
        exact Grows.refl _
    exact hsteps (m.written s.rest) s rfl
  · rw [final_on_rest]

theorem inner_grows (c : ClientCall) (s : Api) :
    Meets GrowsApi (inner env c) s (fun _ _ => True) := by
  unfold inner routes.run_idempotent once
  rw [meets_bind, meets_read, then_ok]
  split
  · rename_i record hfound
    split
    · rw [meets_raise]
      trivial
    · rw [meets_pure]
      trivial
  · rename_i hfree
    refine (on_rest.spec c.execute s).bind (fun data t ht => ?_) (fun _ _ _ => trivial)
    rw [meets_bind, meets_write, then_ok, meets_pure]
    refine ⟨grows_set ?_ _, trivial⟩
    rw [ht]
    exact hfree

/-! ## Memory and snapshot -/

/-- A write keeps the records of the memory, and saves them or does not. -/
structure Keeps (a b : Host) : Prop where
  memory : Grows a.api.records b.api.records
  saved : b.saved = a.saved ∨ b.saved = b.api.records

theorem with_saves_keeps (saves : Nat → Bool) {s : Api} {l : List Api} (h : Steps GrowsApi s l)
    (n : Nat) (saved : Records) : Steps Keeps ⟨s, saved⟩ (with_saves saves n saved l) := by
  induction l generalizing s n saved with
  | nil => trivial
  | cons api rest ih =>
    refine ⟨⟨h.1, ?_⟩, ih h.2 _ _⟩
    dsimp only
    split
    · exact .inr rfl
    · exact .inl rfl

theorem with_saves_last (saves : Nat → Bool) (s : Api) (l : List Api) (n : Nat) (saved : Records) :
    (lastState ⟨s, saved⟩ (with_saves saves n saved l)).api = lastState s l := by
  induction l generalizing s n saved with
  | nil => rfl
  | cons api rest ih => rw [with_saves, lastState_cons, lastState_cons, ih]

theorem in_memory.spec {m : Prog Api PyErr α} {h : Host} (saves : Nat → Bool)
    (hm : Steps GrowsApi h.api (m.written h.api)) : Meets Keeps (in_memory saves m) h
      (fun r t => r = m.result h.api ∧ t.api = m.final h.api) :=
  ⟨with_saves_keeps saves hm 0 h.saved, rfl, with_saves_last saves h.api _ 0 h.saved⟩

/-- How a request ends: what it returns is what it returns in memory, and then
its record is saved. -/
structure Ends (env : Env) (c : ClientCall) (h : Host) (r : Except PyErr PyDict) (t : Host) :
    Prop where
  result : r = (inner env c).result h.api
  records : t.api.records = ((inner env c).final h.api).records
  store : t.api.rest.store = ((inner env c).final h.api).rest.store
  saved : ∀ data, r = .ok data → t.saved = t.api.records
  quiet : ∀ e, r = .error e → t.api = (inner env c).final h.api

theorem run_idempotent.spec (hp : env.persistent = true) (saves : Nat → Bool) (c : ClientCall)
    (h : Host) : Meets Keeps (saved_records.run_idempotent env saves c) h (Ends env c h) := by
  unfold saved_records.run_idempotent
  refine (in_memory.spec (m := inner env c) saves (inner_grows c h.api).1).bind ?_ ?_
  · rintro data t ⟨hresult, hfinal⟩
    unfold saved_records.save_state
    rw [if_pos hp, meets_bind, meets_write, then_ok, meets_pure]
    refine ⟨⟨Grows.refl _, .inr rfl⟩, hresult, ?_, ?_, fun _ _ => rfl, ?_⟩
    · rw [← hfinal]
    · rw [← hfinal]
    · intro e he
      cases he
  · rintro e t ⟨hresult, hfinal⟩
    refine ⟨hresult, by rw [hfinal], by rw [hfinal], ?_, fun _ _ => hfinal⟩
    intro data hdata
    cases hdata

theorem turn_keeps (hp : env.persistent = true) (turn : Turn) (h : Host) :
    Steps Keeps h (turn.written env h) := by
  unfold Turn.written
  cases turn.task with
  | request c => exact (run_idempotent.spec hp turn.saves c h).1
  | operation op => exact (in_memory.spec turn.saves (on_rest.spec (op.act env) h.api).1).1

/-! ## An answer lasts -/

/-- The records answer the call with this data, up to the order of its keys. -/
def HasAnswer (env : Env) (c : ClientCall) (data : PyDict) (records : Records) : Prop :=
  ∃ data', records.get? c.call.key = some ⟨fingerprint env c.payload, data'⟩ ∧
    Same (.dict data') (.dict data)

variable {c : ClientCall} {data : PyDict}

theorem HasAnswer.grows {a b : Records} (h : HasAnswer env c data a) (hgrows : Grows a b) :
    HasAnswer env c data b := by
  obtain ⟨data', hfound, hsame⟩ := h
  exact ⟨data', hgrows _ _ hfound, hsame⟩

theorem HasAnswer.reload {saved : Records} (h : HasAnswer env c data saved) :
    HasAnswer env c data (reload_records saved) := by
  obtain ⟨data', hfound, hsame⟩ := h
  refine ⟨json_round_trip data', ?_, ?_⟩
  · rw [get?_reload_records, hfound]
    rfl
  · unfold Same
    rw [canon_eq_json, json_round_trip_twice, ← canon_eq_json]
    exact hsame

/-- Both the memory and the snapshot answer the call. -/
structure Answered (env : Env) (c : ClientCall) (data : PyDict) (h : Host) : Prop where
  memory : HasAnswer env c data h.api.records
  saved : HasAnswer env c data h.saved

theorem Answered.keeps {a b : Host} (h : Answered env c data a) (hkeeps : Keeps a b) :
    Answered env c data b := by
  have hmemory := h.memory.grows hkeeps.memory
  refine ⟨hmemory, ?_⟩
  rcases hkeeps.saved with hsame | hsaved
  · rw [hsame]
    exact h.saved
  · rw [hsaved]
    exact hmemory

theorem Answered.come_up {h : Host} (hanswered : Answered env c data h)
    (waiting : String → Option EvaluationState) : Answered env c data (come_up waiting h) := by
  constructor
  · rw [come_up_records]
    exact hanswered.saved.reload
  · exact hanswered.saved

theorem answered_lives (hp : env.persistent = true) (events : List Life) {h : Host}
    (hanswered : Answered env c data h) : ∀ t ∈ lives env h events, Answered env c data t := by
  unfold lives
  refine states_invariant (R := Keeps) (I := Answered env c data) ?_ ?_ ?_ events hanswered
  · exact fun turn h _ => turn_keeps hp turn h
  · exact fun _ _ hkeeps h => h.keeps hkeeps
  · exact fun waiting _ h => h.come_up waiting

theorem answered_live (hp : env.persistent = true) (events : List Life) {h : Host}
    (hanswered : Answered env c data h) : Answered env c data (live env h events) :=
  last_of_all hanswered (answered_lives hp events hanswered)

theorem answered_of_ok (hp : env.persistent = true) {saves : Nat → Bool} {h : Host}
    (hok : (saved_records.run_idempotent env saves c).result h = .ok data) :
    Answered env c data ((saved_records.run_idempotent env saves c).final h) := by
  have hends := (run_idempotent.spec hp saves c h).2
  have hinner : (inner env c).result h.api = .ok data := hends.result.symm.trans hok
  have hfound := once_recorded hinner
  have hmemory : HasAnswer env c data
      ((saved_records.run_idempotent env saves c).final h).api.records := by
    refine ⟨data, ?_, rfl⟩
    rw [hends.records]
    exact hfound
  refine ⟨hmemory, ?_⟩
  rw [hends.saved data hok]
  exact hmemory

/-! ## The law -/

/-- How later calls of the same client, endpoint and key are answered. -/
structure AnswersAgain (env : Env) (c : ClientCall) (data : PyDict) (t : Host) (saves : Nat → Bool)
    (c' : ClientCall) : Prop where
  replays : Same (.dict c'.payload) (.dict c.payload) →
    ∃ data', (saved_records.run_idempotent env saves c').result t = .ok data' ∧
      Same (.dict data') (.dict data)
  refuses : ¬ Same (.dict c'.payload) (.dict c.payload) →
    (saved_records.run_idempotent env saves c').result t = .error idempotency_conflict
  stays : ((saved_records.run_idempotent env saves c').final t).api.records = t.api.records ∧
    ((saved_records.run_idempotent env saves c').final t).api.rest.store = t.api.rest.store

theorem answers_again (hf : FloatTexts env) (hp : env.persistent = true) {t : Host}
    (h : HasAnswer env c data t.api.records) (saves : Nat → Bool) {c' : ClientCall}
    (hown : Own c' c) : AnswersAgain env c data t saves c' := by
  obtain ⟨data', hfound, hsame⟩ := h
  have hends := (run_idempotent.spec hp saves c' t).2
  have hkey : t.api.records.get? c'.call.key = some ⟨fingerprint env c.payload, data'⟩ := by
    rw [key_iff.2 hown]
    exact hfound
  by_cases hbody : Same (.dict c'.payload) (.dict c.payload)
  · have hprint : fingerprint env c.payload = fingerprint env c'.payload :=
      ((dumps_eq_iff hf).2 hbody).symm
    obtain ⟨hresult, hfinal⟩ := once_replayed idempotency_conflict c'.execute hkey hprint
    refine ⟨fun _ => ⟨data', hends.result.trans hresult, hsame⟩, absurd hbody, ?_, ?_⟩
    · rw [hends.records]
      exact congrArg Ledger.records hfinal
    · rw [hends.store]
      exact congrArg (fun s : Api => s.rest.store) hfinal
  · have hprint : fingerprint env c.payload ≠ fingerprint env c'.payload :=
      fun heq => hbody ((dumps_eq_iff hf).1 heq.symm)
    obtain ⟨hresult, hfinal⟩ := once_refused idempotency_conflict c'.execute hkey hprint
    refine ⟨fun hsame' => absurd hsame' hbody, fun _ => hends.result.trans hresult, ?_, ?_⟩
    · rw [hends.records]
      exact congrArg Ledger.records hfinal
    · rw [hends.store]
      exact congrArg (fun s : Api => s.rest.store) hfinal

/-- On a persistent store, a request that was answered is never executed
again: through all later requests and operations, and any stop and restart of
the process in the middle of them, its key gives the answer again for the same
body, and a conflict for any other. -/
theorem answers_survive_restarts (hf : FloatTexts env) (hp : env.persistent = true)
    (before : List Life) (saves : Nat → Bool) (c : ClientCall) (data : PyDict)
    (hok : (saved_records.run_idempotent env saves c).result (live env Host.start before) =
      .ok data)
    (later : List Life) (saves' : Nat → Bool) (c' : ClientCall) (hown : Own c' c) :
    AnswersAgain env c data (live env ((saved_records.run_idempotent env saves c).final
      (live env Host.start before)) later) saves' c' :=
  answers_again hf hp (answered_live hp later (answered_of_ok hp hok)).memory saves' hown

/-- The service stops in the middle of another request, and before the retry
has written anything. -/
def two_stops : List Life :=
  [.stopped ⟨.operation (.cancel_job "job_a" "tenant"), fun _ => true⟩ 1 fun _ => none,
    .stopped ⟨.request second_call, fun _ => false⟩ 0 fun _ => none]

def after_first_call : Host :=
  (saved_records.run_idempotent fraction_env (fun _ => true) first_call).final
    (live fraction_env Host.start [])

theorem stopped_retry_is_replayed :
    ∃ data', (saved_records.run_idempotent fraction_env (fun _ => true) second_call).result
        (live fraction_env after_first_call two_stops) = .ok data' ∧
      Same (.dict data') (.dict []) := by
  have hsame : Same (.dict second_call.payload) (.dict first_call.payload) :=
    (dumps_eq_iff fraction_texts).1 (by decide +kernel)
  exact (answers_survive_restarts fraction_texts rfl [] (fun _ => true) first_call [] rfl two_stops
    (fun _ => true) second_call ⟨rfl, rfl, rfl⟩).replays hsame

end bid_evaluation.saved_laws
