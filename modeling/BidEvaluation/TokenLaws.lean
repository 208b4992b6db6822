-- The laws of the resume tokens. A token is consumed at most once, by its
-- tenant, for its evaluation, while it is the last one registered and not
-- expired.
import BidEvaluation.Endings

open dict_lib stepwise bid_evaluation.values bid_evaluation.core bid_evaluation.store_ops
  bid_evaluation.store_workflow bid_evaluation.endings

namespace bid_evaluation.token_laws

variable {env : Env} {w : World}

/-! ## The three calls -/

/-- The token of an evaluation that a register call leaves. -/
def registered_token (resume_token tenant_id : String) (reasons : List String) (now : Int) :
    ResumeToken :=
  ⟨resume_token, tenant_id, false, reasons, now, none⟩

def with_token (s : Store) (evaluation_id : String) (record : ResumeToken) : Store :=
  { s with resume_tokens := s.resume_tokens.set evaluation_id record }

theorem register.spec (env : Env) (evaluation_id resume_token tenant_id : String)
    (reasons : List String) (w : World) :
    Meets AnyStep (register_resume_token env evaluation_id resume_token tenant_id reasons) w
      (fun _ t => t.store = with_token w.store evaluation_id
        (registered_token resume_token tenant_id reasons (env.clock w.draws))) := by
  unfold register_resume_token
  refine saved.spec ?_ ?_
  · refine (utcnow.reads w).bind ?_ ?_
    · rintro now t ⟨hnow, rfl⟩
      cases hnow
      unfold update
      rw [meets_write]
      exact ⟨trivial, rfl⟩
    · rintro e t ⟨he, -⟩
      cases he
  · intro _ t t' h hstore _
    rw [hstore, h]

/-- The token is the one registered for the evaluation, of this tenant, not
used and not expired. -/
structure Accepts (env : Env) (w : World) (evaluation_id resume_token tenant_id : String)
    (record : ResumeToken) : Prop where
  found : w.store.resume_tokens.get? evaluation_id = some record
  tenant : record.tenant_id = tenant_id
  token : record.resume_token = resume_token
  unused : record.used = false
  age : env.clock w.draws ≤ record.issued_at + env.resume_token_ttl_hours * hour

theorem validate.spec (env : Env) (evaluation_id resume_token tenant_id : String) (w : World) :
    Meets AnyStep (validate_resume_token env evaluation_id resume_token tenant_id) w (fun r t =>
      t.store = w.store ∧
        (r = .ok true → t.draws = w.draws + 1) ∧
        (r = .ok true ↔ ∃ record, Accepts env w evaluation_id resume_token tenant_id record)) := by
  unfold validate_resume_token
  rw [meets_bind, meets_read, then_ok]
  split
  · rename_i hnone
    rw [meets_pure]
    refine ⟨rfl, by simp, by simp, ?_⟩
    rintro ⟨record, h⟩
    exact absurd (hnone.symm.trans h.found) (by simp)
  · rename_i record hfound
    have hrecord : ∀ record', Accepts env w evaluation_id resume_token tenant_id record' →
        record' = record := fun record' h => Option.some.inj (h.found.symm.trans hfound)
    unfold assert_tenant_scope
    by_cases hown : record.tenant_id = tenant_id
    · simp only [ne_eq, hown, not_true, if_false, meets_bind, meets_pure, then_ok]
      rw [meets_ite]
      constructor
      · intro hno
        rw [meets_pure]
        refine ⟨rfl, by simp, by simp, ?_⟩
        rintro ⟨record', h⟩
        cases hrecord record' h
        rcases hno with hno | hno
        · exact absurd h.token hno
        · exact absurd (h.unused.symm.trans hno) (by simp)
      · intro hsame
        simp only [not_or, not_not, Bool.not_eq_true] at hsame
        refine (utcnow.reads w).bind ?_ ?_
        · rintro now t ⟨hnow, rfl⟩
          cases hnow
          rw [meets_pure]
          refine ⟨rfl, fun _ => rfl, ?_⟩
          simp only [Except.ok.injEq, decide_eq_true_eq]
          constructor
          · intro hage
            exact ⟨record, hfound, hown, hsame.1, hsame.2, hage⟩
          · rintro ⟨record', h⟩
            cases hrecord record' h
            exact h.age
        · rintro e t ⟨he, -⟩
          cases he
    · simp only [ne_eq, hown, not_false_eq_true, if_true, meets_bind, raise_api, meets_raise,
        then_error]
      refine ⟨trivial, by simp, by simp, ?_⟩
      rintro ⟨record', h⟩
      cases hrecord record' h
      exact absurd h.tenant hown

/-- A token that was consumed. -/
def used_token (record : ResumeToken) (now : Int) : ResumeToken :=
  { record with used := true, used_at := some now }

theorem consume.spec (env : Env) (evaluation_id resume_token tenant_id : String) (w : World) :
    Meets AnyStep (consume_resume_token env evaluation_id resume_token tenant_id) w (fun r t =>
      (r ≠ .ok true ∧ t.store = w.store ∧
        ¬ ∃ record, Accepts env w evaluation_id resume_token tenant_id record) ∨
      (r = .ok true ∧ t.draws = w.draws + 2 ∧
        ∃ record, Accepts env w evaluation_id resume_token tenant_id record ∧
          t.store = with_token w.store evaluation_id
            (used_token record (env.clock (w.draws + 1))))) := by
  unfold consume_resume_token
  refine saved.spec ?_ ?_
  · refine (validate.spec env evaluation_id resume_token tenant_id w).bind ?_ ?_
    · rintro valid t ⟨hstore, hdraws, hvalid⟩
      rw [meets_ite]
      constructor
      · rintro rfl
        obtain ⟨record, haccepts⟩ := hvalid.1 rfl
        refine (utcnow.reads t).bind ?_ ?_
        · rintro now t' ⟨hnow, rfl⟩
          cases hnow
          simp only [update, meets_bind, meets_write, then_ok, meets_pure, any_step, true_and]
          refine .inr ⟨?_, record, haccepts, ?_⟩
          · rw [hdraws rfl]
          · unfold use_token
            rw [hstore, haccepts.found, hdraws rfl]
            rfl
        · rintro e t' ⟨he, -⟩
          cases he
      · intro hinvalid
        rw [meets_pure]
        refine .inl ⟨by simp, hstore, ?_⟩
        intro haccepts
        have htrue := hvalid.2 haccepts
        rw [Except.ok.injEq] at htrue
        exact hinvalid htrue
    · rintro e t ⟨hstore, -, hvalid⟩
      refine .inl ⟨by simp, hstore, ?_⟩
      intro haccepts
      exact absurd (hvalid.2 haccepts) (by simp)
  · rintro valid t t' (⟨hr, hsame, hno⟩ | ⟨hr, hdraws, record, haccepts, hafter⟩) hstore hd
    · exact .inl ⟨hr, hstore.trans hsame, hno⟩
    · exact .inr ⟨hr, hd.trans hdraws, record, haccepts, hstore.trans hafter⟩

/-! ## A history of calls -/

inductive TokenCall where
  | register (evaluation_id resume_token tenant_id : String) (reasons : List String)
  | validate (evaluation_id resume_token tenant_id : String)
  | consume (evaluation_id resume_token tenant_id : String)

/-- A token was registered, or consumed, at this time. -/
inductive Event where
  | registered (evaluation_id resume_token tenant_id : String) (now : Int)
  | consumed (evaluation_id resume_token tenant_id : String) (now : Int)

def Event.evaluation_id : Event → String
  | .registered evaluation_id _ _ _ => evaluation_id
  | .consumed evaluation_id _ _ _ => evaluation_id

structure Session where
  world : World
  log : List Event

def Session.start : Session := ⟨World.start, []⟩

/-- One call. A consume call that does not return `True` is not in the log. -/
def call (env : Env) (s : Session) : TokenCall → Session
  | .register evaluation_id resume_token tenant_id reasons =>
    ⟨(register_resume_token env evaluation_id resume_token tenant_id reasons).final s.world,
      s.log ++ [.registered evaluation_id resume_token tenant_id (env.clock s.world.draws)]⟩
  | .validate evaluation_id resume_token tenant_id =>
    ⟨(validate_resume_token env evaluation_id resume_token tenant_id).final s.world, s.log⟩
  | .consume evaluation_id resume_token tenant_id =>
    ⟨(consume_resume_token env evaluation_id resume_token tenant_id).final s.world,
      match (consume_resume_token env evaluation_id resume_token tenant_id).result s.world with
      | .ok true =>
        s.log ++ [.consumed evaluation_id resume_token tenant_id (env.clock s.world.draws)]
      | _ => s.log⟩

def afterCalls (env : Env) (calls : List TokenCall) : Session :=
  calls.foldl (call env) Session.start

/-- The last event of an evaluation. -/
def lastOf (log : List Event) (evaluation_id : String) : Option Event :=
  (log.filter (fun x => x.evaluation_id = evaluation_id)).getLast?

theorem lastOf_snoc (log : List Event) (x : Event) (evaluation_id : String) :
    lastOf (log ++ [x]) evaluation_id =
      if x.evaluation_id = evaluation_id then some x else lastOf log evaluation_id := by
  unfold lastOf
  rw [List.filter_append]
  by_cases hx : x.evaluation_id = evaluation_id <;> simp [hx]

/-- The last event of an evaluation has no other one of it behind it. -/
theorem lastOf_split {log : List Event} {evaluation_id : String} {x : Event}
    (h : lastOf log evaluation_id = some x) :
    ∃ before after, log = before ++ x :: after ∧
      ∀ y ∈ after, y.evaluation_id ≠ evaluation_id := by
  induction log using List.reverseRecOn with
  | nil => cases h
  | append_singleton log y ih =>
    rw [lastOf_snoc] at h
    by_cases hy : y.evaluation_id = evaluation_id
    · rw [if_pos hy] at h
      cases h
      exact ⟨log, [], rfl, by simp⟩
    · rw [if_neg hy] at h
      obtain ⟨before, after, rfl, hafter⟩ := ih h
      refine ⟨before, after ++ [y], by simp, ?_⟩
      intro z hz
      rcases List.mem_append.1 hz with hz | hz
      · exact hafter z hz
      · rw [List.mem_singleton] at hz
        rw [hz]
        exact hy

/-- The record of an evaluation, as its last event has left it. -/
def Tracks (record : Option ResumeToken) : Option Event → Prop
  | none => record = none
  | some (.registered _ resume_token tenant_id now) => ∃ r, record = some r ∧
      r.resume_token = resume_token ∧ r.tenant_id = tenant_id ∧ r.issued_at = now
  | some (.consumed _ _ _ _) => ∃ r, record = some r ∧ r.used = true

/-- Each consumed token was the last one registered, and not yet expired. -/
def Backed (env : Env) (log : List Event) : Prop :=
  ∀ before after evaluation_id resume_token tenant_id now,
    log = before ++ .consumed evaluation_id resume_token tenant_id now :: after →
    ∃ issued_at, lastOf before evaluation_id =
        some (.registered evaluation_id resume_token tenant_id issued_at) ∧
      now ≤ issued_at + env.resume_token_ttl_hours * hour

theorem backed_snoc {log : List Event} {x : Event} (h : Backed env log)
    (hx : ∀ evaluation_id resume_token tenant_id now,
      x = .consumed evaluation_id resume_token tenant_id now →
      ∃ issued_at, lastOf log evaluation_id =
          some (.registered evaluation_id resume_token tenant_id issued_at) ∧
        now ≤ issued_at + env.resume_token_ttl_hours * hour) : Backed env (log ++ [x]) := by
  intro before after evaluation_id resume_token tenant_id now heq
  rcases List.eq_nil_or_concat after with rfl | ⟨after', y, rfl⟩
  · obtain ⟨rfl, hlast⟩ := List.append_inj' heq rfl
    cases hlast
    exact hx _ _ _ _ rfl
  · have heq' : log ++ [x] =
        (before ++ .consumed evaluation_id resume_token tenant_id now :: after') ++ [y] := by
      rw [heq]
      simp
    obtain ⟨rfl, -⟩ := List.append_inj' heq' rfl
    exact h _ _ _ _ _ _ rfl

structure Kept (env : Env) (s : Session) : Prop where
  tracks : ∀ evaluation_id,
    Tracks (s.world.store.resume_tokens.get? evaluation_id) (lastOf s.log evaluation_id)
  backed : Backed env s.log

theorem kept_start : Kept env Session.start := by
  refine ⟨fun _ => rfl, ?_⟩
  intro before after evaluation_id resume_token tenant_id now heq
  exact absurd heq.symm (by simp [Session.start])

/-- An event of one evaluation, and the record that its call has left. -/
theorem tracks_snoc {s : Session} {x : Event} {record : ResumeToken} (h : Kept env s)
    (hrecord : Tracks (some record) (some x)) (evaluation_id : String) :
    Tracks ((s.world.store.resume_tokens.set x.evaluation_id record).get? evaluation_id)
      (lastOf (s.log ++ [x]) evaluation_id) := by
  rw [lastOf_snoc, Dict.get?_set]
  by_cases heq : evaluation_id = x.evaluation_id
  · rw [if_pos heq, if_pos heq.symm]
    exact hrecord
  · rw [if_neg heq, if_neg (Ne.symm heq)]
    exact h.tracks evaluation_id

theorem kept_register {s : Session} (h : Kept env s)
    (evaluation_id resume_token tenant_id : String) (reasons : List String) :
    Kept env (call env s (.register evaluation_id resume_token tenant_id reasons)) := by
  have hstore := (register.spec env evaluation_id resume_token tenant_id reasons
    s.world).2
  constructor
  · intro id
    show Tracks (((register_resume_token env evaluation_id resume_token tenant_id reasons).final
      s.world).store.resume_tokens.get? id) _
    rw [hstore]
    exact tracks_snoc (x := .registered evaluation_id resume_token tenant_id
      (env.clock s.world.draws)) h ⟨_, rfl, rfl, rfl, rfl⟩ id
  · apply backed_snoc h.backed
    intro _ _ _ _ hx
    cases hx

theorem kept_validate {s : Session} (h : Kept env s)
    (evaluation_id resume_token tenant_id : String) :
    Kept env (call env s (.validate evaluation_id resume_token tenant_id)) := by
  have hstore := (validate.spec env evaluation_id resume_token tenant_id s.world).2.1
  refine ⟨?_, h.backed⟩
  intro id
  show Tracks (((validate_resume_token env evaluation_id resume_token tenant_id).final
    s.world).store.resume_tokens.get? id) (lastOf s.log id)
  rw [hstore]
  exact h.tracks id

/-- The token that a call accepts is the last one registered. -/
theorem last_of_accepted {s : Session} {evaluation_id resume_token tenant_id : String}
    {record : ResumeToken} (h : Kept env s)
    (haccepts : Accepts env s.world evaluation_id resume_token tenant_id record) :
    lastOf s.log evaluation_id =
      some (.registered evaluation_id resume_token tenant_id record.issued_at) := by
  have htracks := h.tracks evaluation_id
  rw [haccepts.found] at htracks
  rcases hlast : lastOf s.log evaluation_id with _ | x
  · rw [hlast] at htracks
    cases htracks
  · rw [hlast] at htracks
    have hid : x.evaluation_id = evaluation_id := by
      have hmem := List.mem_of_getLast? hlast
      simpa using (List.mem_filter.1 hmem).2
    cases x with
    | registered id token tenant now =>
      obtain ⟨r, hr, htoken, htenant, hnow⟩ := htracks
      cases hr
      cases hid
      rw [← htoken, ← htenant, ← hnow, haccepts.token, haccepts.tenant]
      rfl
    | consumed id token tenant now =>
      obtain ⟨r, hr, hused⟩ := htracks
      cases hr
      exact absurd (haccepts.unused.symm.trans hused) (by simp)

theorem kept_consume {s : Session} (h : Kept env s)
    (evaluation_id resume_token tenant_id : String) :
    Kept env (call env s (.consume evaluation_id resume_token tenant_id)) := by
  have hspec := (consume.spec env evaluation_id resume_token tenant_id s.world).2
  rcases hspec with ⟨hr, hstore, -⟩ | ⟨hr, -, record, haccepts, hstore⟩
  · have hlog : (call env s (.consume evaluation_id resume_token tenant_id)).log = s.log := by
      unfold call
      dsimp only
      split
      · rename_i htrue
        exact absurd htrue hr
      · rfl
    refine ⟨?_, by rw [hlog]; exact h.backed⟩
    intro id
    rw [hlog]
    show Tracks (((consume_resume_token env evaluation_id resume_token tenant_id).final
      s.world).store.resume_tokens.get? id) _
    rw [hstore]
    exact h.tracks id
  · have hlog : (call env s (.consume evaluation_id resume_token tenant_id)).log =
        s.log ++ [.consumed evaluation_id resume_token tenant_id (env.clock s.world.draws)] := by
      unfold call
      dsimp only
      rw [hr]
    constructor
    · intro id
      rw [hlog]
      show Tracks (((consume_resume_token env evaluation_id resume_token tenant_id).final
        s.world).store.resume_tokens.get? id) _
      rw [hstore]
      exact tracks_snoc (x := .consumed evaluation_id resume_token tenant_id
        (env.clock s.world.draws)) h ⟨_, rfl, rfl⟩ id
    · rw [hlog]
      apply backed_snoc h.backed
      intro _ _ _ _ hx
      cases hx
      exact ⟨record.issued_at, last_of_accepted h haccepts, haccepts.age⟩

theorem kept_afterCalls (env : Env) (calls : List TokenCall) : Kept env (afterCalls env calls) := by
  induction calls using List.reverseRecOn with
  | nil => exact kept_start
  | append_singleton calls c ih =>
    unfold afterCalls at ih ⊢
    rw [List.foldl_append]
    cases c with
    | register evaluation_id resume_token tenant_id reasons => exact kept_register ih _ _ _ _
    | validate evaluation_id resume_token tenant_id => exact kept_validate ih _ _ _
    | consume evaluation_id resume_token tenant_id => exact kept_consume ih _ _ _

/-! ## The laws -/

/-- A consumed token was registered for that evaluation and tenant, with no
other token of the evaluation registered or consumed since, and it was not
expired. Validation changes nothing. -/
theorem tokens_are_single_use (env : Env) (calls : List TokenCall) :
    (∀ before after evaluation_id resume_token tenant_id now,
      (afterCalls env calls).log =
        before ++ .consumed evaluation_id resume_token tenant_id now :: after →
      ∃ earlier since issued_at,
        before = earlier ++ .registered evaluation_id resume_token tenant_id issued_at :: since ∧
        (∀ x ∈ since, x.evaluation_id ≠ evaluation_id) ∧
        now ≤ issued_at + env.resume_token_ttl_hours * hour) ∧
    ∀ evaluation_id resume_token tenant_id,
      ((validate_resume_token env evaluation_id resume_token tenant_id).final
        (afterCalls env calls).world).store = (afterCalls env calls).world.store := by
  constructor
  · intro before after evaluation_id resume_token tenant_id now heq
    obtain ⟨issued_at, hlast, hage⟩ := (kept_afterCalls env calls).backed _ _ _ _ _ _ heq
    obtain ⟨earlier, since, hbefore, hsince⟩ := lastOf_split hlast
    exact ⟨earlier, since, issued_at, hbefore, hsince, hage⟩
  · intro evaluation_id resume_token tenant_id
    exact (validate.spec env evaluation_id resume_token tenant_id _).2.1

end bid_evaluation.token_laws
