-- Programs that run once for each key. The first execution that returns is
-- written down with a fingerprint of its input. A later call with the same
-- key gets the same data back, or a conflict when its input is another one.
import BidEvaluation.Lib.Stepwise
import BidEvaluation.Lib.Dict

open stepwise dict_lib

namespace once_lib

variable {κ φ δ σ ε α : Type}

/-! ## The ledger -/

structure Record (φ δ : Type) where
  fingerprint : φ
  data : δ

/-- What was executed, and the state that the executions work on. -/
structure Ledger (κ φ δ σ : Type) [DecidableEq κ] where
  records : Dict κ (Record φ δ)
  rest : σ

def Ledger.start [DecidableEq κ] (s : σ) : Ledger κ φ δ σ := ⟨Dict.empty, s⟩

/-- An execution does not see the ledger. -/
def on_rest [DecidableEq κ] (m : Prog σ ε α) : Prog (Ledger κ φ δ σ) ε α := fun s =>
  ((m.written s.rest).map (fun t => { s with rest := t }), m.result s.rest)

def once [DecidableEq κ] [DecidableEq φ] (conflict : ε) (key : κ) (fingerprint : φ)
    (execute : Prog σ ε δ) : Prog (Ledger κ φ δ σ) ε δ := do
  let s ← read
  match s.records.get? key with
  | some record =>
    if record.fingerprint ≠ fingerprint then raise conflict else pure record.data
  | none => do
    let data ← on_rest execute
    write (fun s => { s with records := s.records.set key ⟨fingerprint, data⟩ })
    pure data

variable [DecidableEq κ] [DecidableEq φ] {s : Ledger κ φ δ σ} {key : κ}

omit [DecidableEq φ] in
theorem final_on_rest (m : Prog σ ε α) :
    (on_rest m).final s = { s with rest := m.final s.rest } := by
  unfold Prog.final on_rest lastState Prog.written
  rw [List.getLast?_map]
  cases (m s.rest).1.getLast? <;> rfl

/-! ## The three outcomes of a call -/

theorem once_replayed {record : Record φ δ} {fingerprint : φ} (conflict : ε)
    (execute : Prog σ ε δ) (h : s.records.get? key = some record)
    (heq : record.fingerprint = fingerprint) :
    (once conflict key fingerprint execute).result s = .ok record.data ∧
      (once conflict key fingerprint execute).final s = s := by
  unfold once
  rw [result_read, final_read]
  simp only [h, heq, ne_eq, not_true, if_false]
  exact ⟨rfl, rfl⟩

theorem once_refused {record : Record φ δ} {fingerprint : φ} (conflict : ε)
    (execute : Prog σ ε δ) (h : s.records.get? key = some record)
    (hne : record.fingerprint ≠ fingerprint) :
    (once conflict key fingerprint execute).result s = .error conflict ∧
      (once conflict key fingerprint execute).final s = s := by
  unfold once
  rw [result_read, final_read]
  simp only [h, ne_eq, hne, not_false_eq_true, if_true]
  exact ⟨rfl, rfl⟩

theorem once_returned {execute : Prog σ ε δ} {data : δ} (conflict : ε) (fingerprint : φ)
    (h : s.records.get? key = none)
    (hdata : execute.result s.rest = .ok data) :
    (once conflict key fingerprint execute).result s = .ok data ∧
      (once conflict key fingerprint execute).final s =
        ⟨s.records.set key ⟨fingerprint, data⟩, execute.final s.rest⟩ := by
  have hrun : (on_rest execute).result s = .ok data := hdata
  unfold once
  rw [result_read, final_read]
  simp only [h]
  rw [result_bind hrun, final_bind hrun, final_on_rest]
  exact ⟨rfl, rfl⟩

theorem once_raised {execute : Prog σ ε δ} {e : ε} (conflict : ε) (fingerprint : φ)
    (h : s.records.get? key = none)
    (he : execute.result s.rest = .error e) :
    (once conflict key fingerprint execute).result s = .error e ∧
      (once conflict key fingerprint execute).final s =
        ⟨s.records, execute.final s.rest⟩ := by
  have hrun : (on_rest execute).result s = .error e := he
  unfold once
  rw [result_read, final_read]
  simp only [h]
  rw [result_bind_error hrun, final_bind_error hrun, final_on_rest]
  exact ⟨rfl, rfl⟩

/-- A call that returned is in the ledger. -/
theorem once_recorded {conflict : ε} {fingerprint : φ} {execute : Prog σ ε δ} {data : δ}
    (h : (once conflict key fingerprint execute).result s = .ok data) :
    ((once conflict key fingerprint execute).final s).records.get? key =
      some ⟨fingerprint, data⟩ := by
  rcases hfound : s.records.get? key with _ | record
  · rcases hend : execute.result s.rest with e | data'
    · rw [(once_raised conflict fingerprint hfound hend).1] at h
      cases h
    · obtain ⟨hresult, hfinal⟩ := once_returned conflict fingerprint hfound hend
      rw [hresult] at h
      cases h
      rw [hfinal]
      exact Dict.get?_set_self _ _ _
  · by_cases hsame : record.fingerprint = fingerprint
    · obtain ⟨hresult, hfinal⟩ := once_replayed conflict execute hfound hsame
      rw [hresult] at h
      cases h
      rw [hfinal, hfound, ← hsame]
    · rw [(once_refused conflict execute hfound hsame).1] at h
      cases h

/-! ## A history of calls -/

structure Call (κ φ δ σ ε : Type) where
  key : κ
  fingerprint : φ
  execute : Prog σ ε δ

/-- An execution that was made, and how it ended. -/
structure Execution (κ φ δ σ ε : Type) where
  call : Call κ φ δ σ ε
  ending : Except ε δ

/-- The execution of a call, with a note in the log once it has ended. -/
def watched (c : Call κ φ δ σ ε) : Prog (σ × List (Execution κ φ δ σ ε)) ε δ := fun s =>
  ((c.execute.written s.1).map (fun t => (t, s.2)) ++
    [(c.execute.final s.1, s.2 ++ [⟨c, c.execute.result s.1⟩])], c.execute.result s.1)

abbrev History (κ φ δ σ ε : Type) [DecidableEq κ] : Type :=
  Ledger κ φ δ (σ × List (Execution κ φ δ σ ε))

def serve (conflict : ε) (h : History κ φ δ σ ε) (c : Call κ φ δ σ ε) : History κ φ δ σ ε :=
  (once conflict c.key c.fingerprint (watched c)).final h

def answer (conflict : ε) (h : History κ φ δ σ ε) (c : Call κ φ δ σ ε) : Except ε δ :=
  (once conflict c.key c.fingerprint (watched c)).result h

def served (conflict : ε) (s : σ) (calls : List (Call κ φ δ σ ε)) : History κ φ δ σ ε :=
  calls.foldl (serve conflict) (Ledger.start (s, []))

theorem served_append (conflict : ε) (s : σ) (calls later : List (Call κ φ δ σ ε)) :
    served conflict s (calls ++ later) = later.foldl (serve conflict) (served conflict s calls) :=
  List.foldl_append

omit [DecidableEq κ] [DecidableEq φ] in
theorem final_watched (c : Call κ φ δ σ ε) (s : σ × List (Execution κ φ δ σ ε)) :
    (watched c).final s = (c.execute.final s.1, s.2 ++ [⟨c, c.execute.result s.1⟩]) := by
  unfold Prog.final watched lastState
  simp [Prog.final, lastState]

/-- What the ledger has to say about an execution. -/
def recordOf (key : κ) (x : Execution κ φ δ σ ε) : Option (Record φ δ) :=
  match x.ending with
  | .ok data => if x.call.key = key then some ⟨x.call.fingerprint, data⟩ else none
  | .error _ => none

/-- The executions of a key that returned, first to last. -/
def returnedOf (h : History κ φ δ σ ε) (key : κ) : List (Record φ δ) :=
  h.rest.2.filterMap (recordOf key)

/-- How one call is served: from the ledger, or by an execution. -/
inductive Serves (conflict : ε) (h : History κ φ δ σ ε) (c : Call κ φ δ σ ε) : Prop where
  | replayed (record : Record φ δ) (found : h.records.get? c.key = some record)
      (same : record.fingerprint = c.fingerprint)
      (result : answer conflict h c = .ok record.data) (stays : serve conflict h c = h)
  | refused (record : Record φ δ) (found : h.records.get? c.key = some record)
      (other : record.fingerprint ≠ c.fingerprint)
      (result : answer conflict h c = .error conflict) (stays : serve conflict h c = h)
  | returned (data : δ) (free : h.records.get? c.key = none)
      (ending : c.execute.result h.rest.1 = .ok data) (result : answer conflict h c = .ok data)
      (becomes : serve conflict h c = ⟨h.records.set c.key ⟨c.fingerprint, data⟩,
        (c.execute.final h.rest.1, h.rest.2 ++ [⟨c, .ok data⟩])⟩)
  | raised (e : ε) (free : h.records.get? c.key = none)
      (ending : c.execute.result h.rest.1 = .error e) (result : answer conflict h c = .error e)
      (becomes : serve conflict h c =
        ⟨h.records, (c.execute.final h.rest.1, h.rest.2 ++ [⟨c, .error e⟩])⟩)

theorem serves (conflict : ε) (h : History κ φ δ σ ε) (c : Call κ φ δ σ ε) :
    Serves conflict h c := by
  rcases hfound : h.records.get? c.key with _ | record
  · rcases hend : c.execute.result h.rest.1 with e | data
    · have hwatched : (watched c).result h.rest = .error e := hend
      obtain ⟨hresult, hfinal⟩ := once_raised conflict c.fingerprint hfound hwatched
      rw [final_watched, hend] at hfinal
      exact .raised e hfound hend hresult hfinal
    · have hwatched : (watched c).result h.rest = .ok data := hend
      obtain ⟨hresult, hfinal⟩ := once_returned conflict c.fingerprint hfound hwatched
      rw [final_watched, hend] at hfinal
      exact .returned data hfound hend hresult hfinal
  · by_cases hsame : record.fingerprint = c.fingerprint
    · obtain ⟨hresult, hfinal⟩ := once_replayed conflict (watched c) hfound hsame
      exact .replayed record hfound hsame hresult hfinal
    · obtain ⟨hresult, hfinal⟩ := once_refused conflict (watched c) hfound hsame
      exact .refused record hfound hsame hresult hfinal

/-- The ledger says of each key what its executions have returned. -/
def Noted (h : History κ φ δ σ ε) : Prop :=
  ∀ key, returnedOf h key = (h.records.get? key).toList

omit [DecidableEq φ] in
theorem noted_start (s : σ) :
    Noted (Ledger.start (s, []) : History κ φ δ σ ε) := fun _ => rfl

theorem noted_serve {h : History κ φ δ σ ε} (conflict : ε) (c : Call κ φ δ σ ε) (hn : Noted h) :
    Noted (serve conflict h c) := by
  cases serves conflict h c with
  | replayed record found same result stays =>
    rw [stays]
    exact hn
  | refused record found other result stays =>
    rw [stays]
    exact hn
  | returned data free ending result becomes =>
    rw [becomes]
    intro key
    have hkey := hn key
    unfold returnedOf at hkey ⊢
    rw [List.filterMap_append, hkey, Dict.get?_set]
    by_cases heq : key = c.key
    · subst heq
      simp [recordOf, free]
    · simp [recordOf, heq, Ne.symm heq]
  | raised e free ending result becomes =>
    rw [becomes]
    intro key
    have hkey := hn key
    unfold returnedOf at hkey ⊢
    rw [List.filterMap_append, hkey]
    simp [recordOf]

theorem noted_serves {h : History κ φ δ σ ε} (conflict : ε) (calls : List (Call κ φ δ σ ε))
    (hn : Noted h) : Noted (calls.foldl (serve conflict) h) := by
  induction calls generalizing h with
  | nil => exact hn
  | cons c rest ih => exact ih (noted_serve conflict c hn)

theorem noted_served (conflict : ε) (s : σ) (calls : List (Call κ φ δ σ ε)) :
    Noted (served conflict s calls) := noted_serves conflict calls (noted_start s)

/-- What is in the ledger stays there. -/
theorem found_serve {h : History κ φ δ σ ε} {record : Record φ δ} (conflict : ε)
    (c : Call κ φ δ σ ε) (hfound : h.records.get? key = some record) :
    (serve conflict h c).records.get? key = some record := by
  cases serves conflict h c with
  | replayed record' found same result stays =>
    rw [stays]
    exact hfound
  | refused record' found other result stays =>
    rw [stays]
    exact hfound
  | returned data free ending result becomes =>
    have hne : key ≠ c.key := by
      intro heq
      rw [heq, free] at hfound
      cases hfound
    rw [becomes, Dict.get?_set_of_ne _ _ hne]
    exact hfound
  | raised e free ending result becomes =>
    rw [becomes]
    exact hfound

theorem found_serves {h : History κ φ δ σ ε} {record : Record φ δ} (conflict : ε)
    (calls : List (Call κ φ δ σ ε)) (hfound : h.records.get? key = some record) :
    (calls.foldl (serve conflict) h).records.get? key = some record := by
  induction calls generalizing h with
  | nil => exact hfound
  | cons c rest ih => exact ih (found_serve conflict c hfound)

end once_lib
