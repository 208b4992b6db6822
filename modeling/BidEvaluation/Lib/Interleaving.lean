-- Calls of several processes on one shared state. A call is a script of
-- atomic commands. Any process may make its next command at any time, and
-- may crash between two commands.
import Mathlib.Logic.Function.Basic

namespace interleaving

variable {κ : Type} {ρ : κ → Type} {α β σ π χ : Type}

/-! ## Scripts -/

/-- The commands of a call, each chosen by the replies to those before. -/
inductive Script (κ : Type) (ρ : κ → Type) (α : Type) where
  | done (a : α)
  | command (c : κ) (next : ρ c → Script κ ρ α)

namespace Script

def bind : Script κ ρ α → (α → Script κ ρ β) → Script κ ρ β
  | done a, f => f a
  | command c next, f => command c (fun r => bind (next r) f)

instance : Monad (Script κ ρ) where
  pure := done
  bind := bind

/-- One command and its reply. -/
def request (c : κ) : Script κ ρ (ρ c) := command c done

@[simp] theorem request_bind (c : κ) (f : ρ c → Script κ ρ α) :
    (request c >>= f) = command c f := rfl

@[simp] theorem pure_bind (a : α) (f : α → Script κ ρ β) :
    ((pure a : Script κ ρ α) >>= f) = f a := rfl

end Script

/-! ## The system -/

/-- What the shared state does on a command, and what it replies. -/
abbrev Exec (κ : Type) (ρ : κ → Type) (σ : Type) : Type := (c : κ) → σ → σ × ρ c

namespace Script

/-- A call that nobody interrupts. -/
def run (exec : Exec κ ρ σ) : Script κ ρ α → σ → σ × α
  | done a, s => (s, a)
  | command c next, s => run exec (next (exec c s).2) (exec c s).1

@[simp] theorem run_pure (exec : Exec κ ρ σ) (a : α) (s : σ) :
    run exec (pure a : Script κ ρ α) s = (s, a) := rfl

theorem run_bind (exec : Exec κ ρ σ) (m : Script κ ρ α) (f : α → Script κ ρ β) (s : σ) :
    run exec (m >>= f) s = run exec (f (run exec m s).2) (run exec m s).1 := by
  induction m generalizing s with
  | done a => rfl
  | command c next ih => exact ih _ _

end Script

/-- The call that a process is in. No other call has its ticket. -/
structure Running (κ : Type) (ρ : κ → Type) (χ α : Type) where
  ticket : Nat
  call : χ
  rest : Script κ ρ α

inductive Event (κ χ α : Type) where
  | ran (ticket : Nat) (call : χ) (c : κ)
  | returned (ticket : Nat) (call : χ) (a : α)

structure System (κ : Type) (ρ : κ → Type) (σ π χ α : Type) where
  shared : σ
  running : π → Option (Running κ ρ χ α)
  tickets : Nat
  log : List (Event κ χ α)

inductive Move (π χ : Type) where
  | call (p : π) (c : χ)
  | step (p : π)
  | crash (p : π)

namespace System

def start (s : σ) : System κ ρ σ π χ α := ⟨s, fun _ => none, 0, []⟩

variable [DecidableEq π]

/-- A process goes on with its call: it makes a command, or returns. -/
def goOn (exec : Exec κ ρ σ) (s : System κ ρ σ π χ α) (p : π) (r : Running κ ρ χ α) :
    System κ ρ σ π χ α :=
  match r.rest with
  | .done a =>
    { s with
      running := Function.update s.running p none
      log := s.log ++ [.returned r.ticket r.call a] }
  | .command c next =>
    { s with
      shared := (exec c s.shared).1
      running := Function.update s.running p (some { r with rest := next (exec c s.shared).2 })
      log := s.log ++ [.ran r.ticket r.call c] }

/-- A process is in one call at a time. -/
def move (exec : Exec κ ρ σ) (code : Nat → χ → Script κ ρ α) (s : System κ ρ σ π χ α) :
    Move π χ → System κ ρ σ π χ α
  | .call p c =>
    match s.running p with
    | some _ => s
    | none =>
      { s with
        running := Function.update s.running p (some ⟨s.tickets, c, code s.tickets c⟩)
        tickets := s.tickets + 1 }
  | .step p =>
    match s.running p with
    | none => s
    | some r => s.goOn exec p r
  | .crash p => { s with running := Function.update s.running p none }

/-- What a move can do. -/
theorem move_cases {exec : Exec κ ρ σ} {code : Nat → χ → Script κ ρ α} {s : System κ ρ σ π χ α}
    {m : Move π χ} {P : System κ ρ σ π χ α → Prop} (idle : P s)
    (called : ∀ p c, m = .call p c → s.running p = none →
      P { s with
        running := Function.update s.running p (some ⟨s.tickets, c, code s.tickets c⟩)
        tickets := s.tickets + 1 })
    (returned : ∀ p r a, m = .step p → s.running p = some r → r.rest = .done a →
      P { s with
        running := Function.update s.running p none
        log := s.log ++ [.returned r.ticket r.call a] })
    (ran : ∀ p r c next, m = .step p → s.running p = some r → r.rest = .command c next →
      P { s with
        shared := (exec c s.shared).1
        running := Function.update s.running p (some { r with rest := next (exec c s.shared).2 })
        log := s.log ++ [.ran r.ticket r.call c] })
    (crashed : ∀ p, m = .crash p → P { s with running := Function.update s.running p none }) :
    P (s.move exec code m) := by
  cases m with
  | call p c =>
    cases hp : s.running p with
    | some r => simpa only [move, hp] using idle
    | none => simpa only [move, hp] using called p c rfl hp
  | step p =>
    cases hp : s.running p with
    | none => simpa only [move, hp] using idle
    | some r =>
      cases hrest : r.rest with
      | done a => simpa only [move, hp, goOn, hrest] using returned p r a rfl hp hrest
      | command c next => simpa only [move, hp, goOn, hrest] using ran p r c next rfl hp hrest
  | crash p => simpa only [move] using crashed p rfl

end System

/-! ## Tickets -/

/-- Tickets come from a counter, so no two running calls share one. -/
structure Ticketed (s : System κ ρ σ π χ α) : Prop where
  below : ∀ p r, s.running p = some r → r.ticket < s.tickets
  apart : ∀ p q r r', s.running p = some r → s.running q = some r' → r.ticket = r'.ticket → p = q

theorem Ticketed.start (s : σ) : Ticketed (System.start s : System κ ρ σ π χ α) where
  below := by
    intro p r h
    simp [System.start] at h
  apart := by
    intro p q r r' h
    simp [System.start] at h

section

variable [DecidableEq π]

/-- A process that stops, or goes on under its own ticket, shares none. -/
theorem Ticketed.goes_on {s s' : System κ ρ σ π χ α} (h : Ticketed s) (p : π)
    (next : Option (Running κ ρ χ α))
    (hnext : ∀ r, next = some r → ∃ r', s.running p = some r' ∧ r.ticket = r'.ticket)
    (hrunning : s'.running = Function.update s.running p next) (htickets : s'.tickets = s.tickets) :
    Ticketed s' := by
  have hold : ∀ q r, s'.running q = some r →
      ∃ r', s.running q = some r' ∧ r.ticket = r'.ticket := by
    intro q r hr
    rw [hrunning] at hr
    by_cases hq : q = p
    · subst hq
      rw [Function.update_self] at hr
      exact hnext r hr
    · rw [Function.update_of_ne hq] at hr
      exact ⟨r, hr, rfl⟩
  constructor
  · intro q r hr
    obtain ⟨r', hr', heq⟩ := hold q r hr
    rw [htickets, heq]
    exact h.below q r' hr'
  · intro q q' r r' hr hr' heq
    obtain ⟨o, ho, heqo⟩ := hold q r hr
    obtain ⟨o', ho', heqo'⟩ := hold q' r' hr'
    exact h.apart q q' o o' ho ho' (by omega)

theorem Ticketed.move {exec : Exec κ ρ σ} {code : Nat → χ → Script κ ρ α}
    {s : System κ ρ σ π χ α} (h : Ticketed s) (m : Move π χ) :
    Ticketed (s.move exec code m) := by
  refine System.move_cases h ?_ ?_ ?_ ?_
  · intro p c _ _
    have hcases : ∀ q r,
        Function.update s.running p (some ⟨s.tickets, c, code s.tickets c⟩) q = some r →
        (q = p ∧ r.ticket = s.tickets) ∨ (s.running q = some r ∧ r.ticket < s.tickets) := by
      intro q r hr
      by_cases hq : q = p
      · subst hq
        rw [Function.update_self] at hr
        obtain rfl := Option.some.inj hr
        exact .inl ⟨rfl, rfl⟩
      · rw [Function.update_of_ne hq] at hr
        exact .inr ⟨hr, h.below q r hr⟩
    constructor
    · intro q r hr
      have hlt : r.ticket < s.tickets + 1 := by
        obtain ⟨-, heq⟩ | ⟨-, hlt⟩ := hcases q r hr <;> omega
      exact hlt
    · intro q q' r r' hr hr' heq
      obtain ⟨hq, ht⟩ | ⟨hq, ht⟩ := hcases q r hr <;>
        obtain ⟨hq', ht'⟩ | ⟨hq', ht'⟩ := hcases q' r' hr'
      · rw [hq, hq']
      · omega
      · omega
      · exact h.apart q q' r r' hq hq' heq
  · intro p r a _ _ _
    exact h.goes_on p none (by simp) rfl rfl
  · intro p r c next _ hp _
    refine h.goes_on p (some _) ?_ rfl rfl
    intro r' hr'
    obtain rfl := Option.some.inj hr'
    exact ⟨r, hp, rfl⟩
  · intro p _
    exact h.goes_on p none (by simp) rfl rfl

end

/-! ## Safe runs -/

/-- An invariant that only bad moves can break, and that each of them breaks
visibly: every state of a run is safe exactly when no move of it is bad. -/
theorem safe_run_iff {τ μ : Type} {move : τ → μ → τ} {Inv Safe : τ → Prop} {Bad : τ → μ → Prop}
    (hsafe : ∀ s, Inv s → Safe s) (hkeeps : ∀ s m, Inv s → ¬ Bad s m → Inv (move s m))
    (hbad : ∀ s m, Inv s → Bad s m → ¬ Safe (move s m)) {s : τ} (h : Inv s) (moves : List μ) :
    (∀ done, done <+: moves → Safe (done.foldl move s)) ↔
      ∀ done m, done ++ [m] <+: moves → ¬ Bad (done.foldl move s) m := by
  induction moves generalizing s with
  | nil =>
    constructor
    · intro _ done m hprefix
      simp at hprefix
    · intro _ done hprefix
      rw [List.prefix_nil.1 hprefix]
      exact hsafe s h
  | cons m rest ih =>
    constructor
    · intro hall
      have hgood : ¬ Bad s m := by
        intro hb
        exact hbad s m h hb (hall [m] (by simp))
      have hrest := (ih (hkeeps s m h hgood)).1 fun done hprefix =>
        hall (m :: done) (List.cons_prefix_cons.2 ⟨rfl, hprefix⟩)
      intro done m' hprefix
      cases done with
      | nil =>
        obtain ⟨rfl, -⟩ := List.cons_prefix_cons.1 hprefix
        exact hgood
      | cons first done =>
        obtain ⟨rfl, htail⟩ := List.cons_prefix_cons.1 hprefix
        exact hrest done m' htail
    · intro hall
      have hgood : ¬ Bad s m := hall [] m (by simp)
      have hrest := (ih (hkeeps s m h hgood)).2 fun done m' hprefix =>
        hall (m :: done) m' (List.cons_prefix_cons.2 ⟨rfl, hprefix⟩)
      intro done hprefix
      cases done with
      | nil => exact hsafe s h
      | cons first done =>
        obtain ⟨rfl, htail⟩ := List.cons_prefix_cons.1 hprefix
        exact hrest done htail

end interleaving
