-- Computations that are tried one after the other. An error that is caught
-- goes on to the next one, and any other error escapes.
import Mathlib.Data.List.Basic

namespace fallback

variable {ε δ α : Type} (caught : ε → Option δ) (exhausted : Option δ → ε)

/-- The first value, or an error that says which one was caught last. -/
def tryAll : Option δ → List (Except ε α) → Except ε α
  | last, [] => .error (exhausted last)
  | _, .ok a :: _ => .ok a
  | _, .error e :: rest =>
    match caught e with
    | some d => tryAll (some d) rest
    | none => .error e

/-- No outcome before the `n`-th is a value. -/
def Reached (outcomes : List (Except ε α)) (n : Nat) : Prop :=
  ∀ m < n, ∀ a, outcomes[m]? ≠ some (.ok a)

def NoValue (outcomes : List (Except ε α)) : Prop := ∀ (n : Nat) (a : α), outcomes[n]? ≠ some (.ok a)

/-- Every error before the first value is caught. -/
def Contained (outcomes : List (Except ε α)) : Prop :=
  ∀ n e, outcomes[n]? = some (.error e) → Reached outcomes n → (caught e).isSome = true

/-- The chain gives the first value, or says that it is exhausted. -/
structure FirstWorks (outcomes : List (Except ε α)) (result : Except ε α) : Prop where
  first : ∀ n a, outcomes[n]? = some (.ok a) → Reached outcomes n → result = .ok a
  exhausted : NoValue outcomes → ∃ last, result = .error (exhausted last)

variable {caught exhausted} {outcomes : List (Except ε α)} {last : Option δ} {e : ε} {a : α}

@[simp] theorem reached_zero : Reached outcomes 0 := fun _ h => absurd h (Nat.not_lt_zero _)

@[simp] theorem reached_error {n : Nat} :
    Reached ((.error e : Except ε α) :: outcomes) (n + 1) ↔ Reached outcomes n := by
  constructor
  · intro h m hm
    exact h (m + 1) (by omega)
  · intro h m hm
    cases m with
    | zero => simp
    | succ m => exact h m (by omega)

theorem not_reached_ok {n : Nat} : ¬Reached ((.ok a : Except ε α) :: outcomes) (n + 1) :=
  fun h => h 0 (by omega) a rfl

theorem contained_error : Contained caught ((.error e : Except ε α) :: outcomes) ↔
    (caught e).isSome = true ∧ Contained caught outcomes := by
  constructor
  · intro h
    refine ⟨h 0 e rfl reached_zero, ?_⟩
    intro n e' hn hreached
    exact h (n + 1) e' hn (reached_error.2 hreached)
  · intro h n e' hn hreached
    cases n with
    | zero =>
      cases hn
      exact h.1
    | succ n => exact h.2 n e' hn (reached_error.1 hreached)

theorem tryAll_contained (h : Contained caught outcomes) :
    FirstWorks exhausted outcomes (tryAll caught exhausted last outcomes) := by
  induction outcomes generalizing last with
  | nil => exact ⟨by simp, fun _ => ⟨last, rfl⟩⟩
  | cons outcome rest ih =>
    cases outcome with
    | error e =>
      rw [contained_error] at h
      obtain ⟨d, hd⟩ := Option.isSome_iff_exists.1 h.1
      unfold tryAll
      rw [hd]
      have hrest := @ih (some d) h.2
      refine ⟨?_, fun hnone => hrest.exhausted fun n a => hnone (n + 1) a⟩
      intro n a hn hreached
      cases n with
      | zero => cases hn
      | succ n => exact hrest.first n a hn (reached_error.1 hreached)
    | ok a =>
      refine ⟨?_, fun hnone => absurd rfl (hnone 0 a)⟩
      intro n b hn hreached
      cases n with
      | zero =>
        cases hn
        rfl
      | succ n => exact absurd hreached not_reached_ok

/-- An error that is not caught before a value ends the chain. -/
theorem tryAll_escapes (h : ¬Contained caught outcomes) :
    ∃ e, caught e = none ∧ tryAll caught exhausted last outcomes = .error e := by
  induction outcomes generalizing last with
  | nil =>
    refine absurd ?_ h
    intro n e hn
    simp at hn
  | cons outcome rest ih =>
    cases outcome with
    | error e =>
      unfold tryAll
      rcases hcaught : caught e with _ | d
      · exact ⟨e, hcaught, rfl⟩
      · apply ih
        intro hrest
        apply h
        rw [contained_error, hcaught]
        exact ⟨rfl, hrest⟩
    | ok a =>
      refine absurd ?_ h
      intro n e hn hreached
      cases n with
      | zero => cases hn
      | succ n => exact absurd hreached not_reached_ok

theorem first_or_none (outcomes : List (Except ε α)) :
    (∃ n a, outcomes[n]? = some (.ok a) ∧ Reached outcomes n) ∨ NoValue outcomes := by
  induction outcomes with
  | nil => exact Or.inr (by simp [NoValue])
  | cons outcome rest ih =>
    cases outcome with
    | ok a => exact Or.inl ⟨0, a, rfl, reached_zero⟩
    | error e =>
      rcases ih with ⟨n, a, hn, hreached⟩ | hnone
      · exact Or.inl ⟨n + 1, a, hn, reached_error.2 hreached⟩
      · apply Or.inr
        intro n a
        cases n with
        | zero => simp
        | succ n => exact hnone n a

/-- Where the last error would be caught, too, the first value counts exactly
when no error escapes before it. -/
theorem firstWorks_iff (hexhausted : ∀ last, (caught (exhausted last)).isSome = true) :
    FirstWorks exhausted outcomes (tryAll caught exhausted last outcomes) ↔ Contained caught outcomes := by
  constructor
  · intro h
    by_contra hno
    obtain ⟨e, hescapes, hresult⟩ := @tryAll_escapes _ _ _ _ exhausted _ last hno
    rw [hresult] at h
    rcases first_or_none outcomes with ⟨n, a, hn, hreached⟩ | hnone
    · cases h.first n a hn hreached
    · obtain ⟨last, heq⟩ := h.exhausted hnone
      have hcaught := hexhausted last
      rw [← Except.error.inj heq, hescapes] at hcaught
      cases hcaught
  · exact tryAll_contained

end fallback
