-- Processes that share one row. Each of them works on a memory of its own. It
-- loads the row when it starts, and a save writes its whole memory over the
-- row.
import Mathlib.Logic.Function.Basic

namespace shared_row

variable {σ τ υ π : Type}

/-- How a memory becomes a row and back, and which updates a row holds. -/
structure Setup (σ τ υ : Type) where
  snapshot : σ → τ
  load : Option τ → σ → σ
  holds : υ → τ → Bool
  loaded : ∀ t m, snapshot (load (some t) m) = t

/-- `seen` has the updates that a memory has held since its process started,
and `foreign` those that others have put into the row since then. No move
reads these two. -/
structure System (σ τ υ π : Type) where
  row : Option τ
  memory : π → σ
  seen : π → υ → Bool
  foreign : π → υ → Bool

inductive Move (σ π : Type) where
  | start (p : π)
  | write (p : π) (m : σ)
  | save (p : π)

namespace Setup

variable (S : Setup σ τ υ)

def inMemory (s : System σ τ υ π) (p : π) (u : υ) : Bool := S.holds u (S.snapshot (s.memory p))

def rowHolds (row : Option τ) (u : υ) : Bool := row.any (S.holds u)

def inRow (s : System σ τ υ π) (u : υ) : Bool := S.rowHolds s.row u

/-- No process has started yet, so all that the row has is of others. -/
def begin (row : Option τ) (memory : π → σ) : System σ τ υ π where
  row := row
  memory := memory
  seen p u := S.holds u (S.snapshot (memory p))
  foreign _ u := S.rowHolds row u

variable [DecidableEq π]

def move (s : System σ τ υ π) : Move σ π → System σ τ υ π
  | .start p =>
    let m := S.load s.row (s.memory p)
    { s with
      memory := Function.update s.memory p m
      seen := Function.update s.seen p (fun u => S.holds u (S.snapshot m))
      foreign := Function.update s.foreign p (fun _ => false) }
  | .write p m =>
    { s with
      memory := Function.update s.memory p m
      seen := Function.update s.seen p (fun u => s.seen p u || S.holds u (S.snapshot m)) }
  | .save p =>
    { s with
      row := some (S.snapshot (s.memory p))
      foreign := fun q u => s.foreign q u || (q ≠ p && S.inMemory s p u) }

def after (s : System σ τ υ π) (moves : List (Move σ π)) : System σ τ υ π := moves.foldl S.move s

/-! ## Updates that stay -/

/-- The process has held the update, and has taken it away itself. -/
def TakenAway (s : System σ τ υ π) (p : π) (u : υ) : Prop :=
  s.seen p u = true ∧ S.inMemory s p u = false

/-- What is in the row stays there, until a process that has held it saves a
memory from which it has taken it away. -/
def Persistent (s : System σ τ υ π) (moves : List (Move σ π)) : Prop :=
  ∀ done later, done ++ later <+: moves → ∀ u, S.inRow (S.after s done) u = true →
    S.inRow (S.after s (done ++ later)) u = true ∨
      ∃ mid p rest, later = mid ++ .save p :: rest ∧ S.TakenAway (S.after s (done ++ mid)) p u

/-- The process has held all that the others have put into the row since it
started. -/
def UpToDate (s : System σ τ υ π) (p : π) : Prop :=
  ∀ u, S.inRow s u = true → s.foreign p u = true → s.seen p u = true

/-- What the two histories know. -/
structure Tracked (s : System σ τ υ π) : Prop where
  memory_seen : ∀ p u, S.inMemory s p u = true → s.seen p u = true
  row_known : ∀ p u, S.inRow s u = true → s.seen p u = true ∨ s.foreign p u = true

variable {S} {s : System σ τ υ π}

omit [DecidableEq π] in
theorem Tracked.begin (row : Option τ) (memory : π → σ) : S.Tracked (S.begin row memory) where
  memory_seen := fun _ _ h => h
  row_known := fun _ _ h => .inr h

theorem Tracked.move (h : S.Tracked s) (m : Move σ π) : S.Tracked (S.move s m) := by
  cases m with
  | start p =>
    constructor
    · intro q u hin
      by_cases hq : q = p
      · subst hq
        simpa [Setup.move, inMemory] using hin
      · have hold : S.inMemory s q u = true := by simpa [Setup.move, inMemory, hq] using hin
        simpa [Setup.move, hq] using h.memory_seen q u hold
    · intro q u hin
      by_cases hq : q = p
      · subst hq
        -- the memory has just become what the row has
        left
        cases hrow : s.row with
        | none => simp [Setup.move, inRow, rowHolds, hrow] at hin
        | some t => simpa [Setup.move, inRow, rowHolds, hrow, S.loaded] using hin
      · simpa [Setup.move, hq] using h.row_known q u hin
  | write p t =>
    constructor
    · intro q u hin
      by_cases hq : q = p
      · subst hq
        have hnew : S.holds u (S.snapshot t) = true := by simpa [Setup.move, inMemory] using hin
        simp [Setup.move, hnew]
      · have hold : S.inMemory s q u = true := by simpa [Setup.move, inMemory, hq] using hin
        simpa [Setup.move, hq] using h.memory_seen q u hold
    · intro q u hin
      have hknown := h.row_known q u hin
      by_cases hq : q = p
      · subst hq
        rcases hknown with hseen | hforeign
        · left
          simp [Setup.move, hseen]
        · exact .inr hforeign
      · simpa [Setup.move, hq] using hknown
  | save p =>
    constructor
    · exact h.memory_seen
    · intro q u hin
      have hsaved : S.inMemory s p u = true := hin
      by_cases hq : q = p
      · subst hq
        exact .inl (h.memory_seen q u hsaved)
      · right
        simp [Setup.move, hq, hsaved]

theorem Tracked.after (h : S.Tracked s) (moves : List (Move σ π)) :
    S.Tracked (S.after s moves) := by
  induction moves generalizing s with
  | nil => exact h
  | cons m rest ih => exact ih (h.move m)

theorem after_append (s : System σ τ υ π) (moves rest : List (Move σ π)) :
    S.after s (moves ++ rest) = S.after (S.after s moves) rest := by
  unfold Setup.after
  rw [List.foldl_append]

/-- One move of a process that is up to date takes nothing out of the row but
what its process took away itself. -/
theorem Tracked.stays (h : S.Tracked s) (m : Move σ π) (hsave : ∀ p, m = .save p → S.UpToDate s p)
    {u : υ} (hin : S.inRow s u = true) :
    S.inRow (S.move s m) u = true ∨ ∃ p, m = .save p ∧ S.TakenAway s p u := by
  cases m with
  | start p => exact .inl hin
  | write p t => exact .inl hin
  | save p =>
    have hseen : s.seen p u = true := by
      rcases h.row_known p u hin with hseen | hforeign
      · exact hseen
      · exact hsave p rfl u hin hforeign
    cases hheld : S.inMemory s p u with
    | true => exact .inl hheld
    | false => exact .inr ⟨p, rfl, hseen, hheld⟩

/-- Updates stay in the row exactly when each save is made by a process that
is up to date. -/
theorem Tracked.persistent_iff (h : S.Tracked s) (moves : List (Move σ π)) :
    S.Persistent s moves ↔
      ∀ done p, done ++ [.save p] <+: moves → S.UpToDate (S.after s done) p := by
  constructor
  · intro hstays done p hprefix u hin hforeign
    have hkept := hstays done [.save p] hprefix u hin
    rw [after_append] at hkept
    rcases hkept with hrow | ⟨mid, q, rest, hsplit, hseen, -⟩
    · exact (h.after done).memory_seen p u hrow
    · cases mid with
      | nil =>
        obtain ⟨hsave, -⟩ := List.cons.inj hsplit
        obtain rfl := Move.save.inj hsave
        simpa using hseen
      | cons first mid =>
        have hlength := congrArg List.length hsplit
        simp at hlength
  · intro hall done later
    induction later generalizing done with
    | nil =>
      intro _ u hin
      left
      simpa using hin
    | cons m rest ih =>
      intro hprefix u hin
      have hshort : done ++ [m] <+: moves := by
        refine List.IsPrefix.trans ?_ hprefix
        exact ⟨rest, by simp⟩
      have hmove := (h.after done).stays m (fun p hp => hall done p (hp ▸ hshort)) hin
      rcases hmove with hrow | ⟨p, rfl, htaken⟩
      · have hstep : S.move (S.after s done) m = S.after s (done ++ [m]) := by
          rw [after_append]
          rfl
        rw [hstep] at hrow
        have hthen := ih (done ++ [m]) (by simpa using hprefix) u hrow
        rw [List.append_assoc] at hthen
        rcases hthen with hstill | ⟨mid, p, rest', rfl, htaken⟩
        · exact .inl hstill
        · refine .inr ⟨m :: mid, p, rest', rfl, ?_⟩
          rw [List.append_assoc] at htaken
          exact htaken
      · exact .inr ⟨[], p, rest, rfl, by simpa using htaken⟩

end Setup

end shared_row
