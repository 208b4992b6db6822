-- Asking until there is an answer: a program checks that it is within its
-- time, asks, waits if nothing is decided yet, and starts over. A run of it is
-- some rounds that decided nothing, and what the round after them did.
import BidEvaluation.Lib.Stepwise

namespace stepwise

variable {σ ε α : Type}

/-- Out of fuel it gives `none`. -/
def poll (within : Prog σ ε Bool) (ask : Prog σ ε (Option α)) (wait : Prog σ ε Unit) (late : ε) :
    Nat → Prog σ ε (Option α)
  | 0 => pure none
  | fuel + 1 => do
    if ← within then
      match ← ask with
      | some a => pure (some a)
      | none => do
        wait
        poll within ask wait late fuel
    else raise late

section rounds

variable {within : Prog σ ε Bool} {ask : Prog σ ε (Option α)} {wait : Prog σ ε Unit} {late : ε}

/-- The state that a round which decides nothing leaves. -/
def after_round (within : Prog σ ε Bool) (ask : Prog σ ε (Option α)) (wait : Prog σ ε Unit)
    (s : σ) : σ := wait.final (ask.final (within.final s))

/-- A round in which nothing is decided, and nothing is raised. -/
structure Undecided (within : Prog σ ε Bool) (ask : Prog σ ε (Option α)) (wait : Prog σ ε Unit)
    (s : σ) : Prop where
  in_time : within.result s = .ok true
  pending : ask.result (within.final s) = .ok none
  waited : wait.result (ask.final (within.final s)) = .ok ()

/-- How a round ends the polling: the time is up, the answer decides, or a call raises. -/
inductive Ending (within : Prog σ ε Bool) (ask : Prog σ ε (Option α)) (wait : Prog σ ε Unit)
    (late : ε) (s : σ) : Except ε (Option α) → σ → Prop where
  | unchecked {e : ε} (h : within.result s = .error e) :
      Ending within ask wait late s (.error e) (within.final s)
  | late (h : within.result s = .ok false) :
      Ending within ask wait late s (.error late) (within.final s)
  | decided {r : Except ε (Option α)} (htime : within.result s = .ok true)
      (h : ask.result (within.final s) = r) (hr : r ≠ .ok none) :
      Ending within ask wait late s r (ask.final (within.final s))
  | woken {e : ε} (htime : within.result s = .ok true)
      (hpending : ask.result (within.final s) = .ok none)
      (h : wait.result (ask.final (within.final s)) = .error e) :
      Ending within ask wait late s (.error e) (after_round within ask wait s)

/-- The state after some rounds that decided nothing. -/
def rounds (within : Prog σ ε Bool) (ask : Prog σ ε (Option α)) (wait : Prog σ ε Unit) :
    σ → Nat → σ
  | s, 0 => s
  | s, n + 1 => rounds within ask wait (after_round within ask wait s) n

theorem poll.round (s : σ) (fuel : Nat) :
    (Undecided within ask wait s ∧
      (poll within ask wait late (fuel + 1)).result s =
        (poll within ask wait late fuel).result (after_round within ask wait s) ∧
      (poll within ask wait late (fuel + 1)).final s =
        (poll within ask wait late fuel).final (after_round within ask wait s)) ∨
    Ending within ask wait late s ((poll within ask wait late (fuel + 1)).result s)
      ((poll within ask wait late (fuel + 1)).final s) := by
  rw [poll]
  cases htime : within.result s with
  | error e =>
    right
    rw [result_bind_error htime, final_bind_error htime]
    exact .unchecked htime
  | ok in_time =>
    rw [result_bind htime, final_bind htime]
    cases in_time with
    | false => exact .inr (.late htime)
    | true =>
      rw [if_pos rfl]
      cases hask : ask.result (within.final s) with
      | error e =>
        right
        rw [result_bind_error hask, final_bind_error hask]
        exact .decided htime hask fun h => by cases h
      | ok answer =>
        rw [result_bind hask, final_bind hask]
        cases answer with
        | some a => exact .inr (.decided htime hask fun h => by cases h)
        | none =>
          cases hwait : wait.result (ask.final (within.final s)) with
          | error e =>
            right
            rw [result_bind_error hwait, final_bind_error hwait]
            exact .woken htime hask hwait
          | ok _ => exact .inl ⟨⟨htime, hask, hwait⟩, result_bind hwait, final_bind hwait⟩

/-- A run is some rounds that decide nothing, up to one that ends it or to the
end of the fuel. -/
theorem poll.run (s : σ) (fuel : Nat) : ∃ n ≤ fuel,
    (∀ k < n, Undecided within ask wait (rounds within ask wait s k)) ∧
      (n = fuel ∨ Ending within ask wait late (rounds within ask wait s n)
        ((poll within ask wait late fuel).result s)
        ((poll within ask wait late fuel).final s)) := by
  induction fuel generalizing s with
  | zero => exact ⟨0, Nat.le_refl 0, fun k hk => absurd hk (Nat.not_lt_zero k), .inl rfl⟩
  | succ fuel ih =>
    rcases poll.round s fuel with ⟨hround, hresult, hfinal⟩ | hend
    · obtain ⟨n, hn, hbefore, hend⟩ := ih (after_round within ask wait s)
      refine ⟨n + 1, Nat.succ_le_succ hn, fun k hk => ?_, ?_⟩
      · cases k with
        | zero => exact hround
        | succ k => exact hbefore k (Nat.lt_of_succ_lt_succ hk)
      · rw [hresult, hfinal]
        exact hend.imp (congrArg Nat.succ) id
    · exact ⟨0, Nat.zero_le _, fun k hk => absurd hk (Nat.not_lt_zero k), .inr hend⟩

/-- Where the time is up after `limit` rounds, more fuel than that is enough. -/
theorem poll.ends (s : σ) {limit fuel : Nat} (hfuel : limit < fuel)
    (hlimit : ∀ n, (∀ k < n, Undecided within ask wait (rounds within ask wait s k)) → n ≤ limit) :
    ∃ n ≤ limit, (∀ k < n, Undecided within ask wait (rounds within ask wait s k)) ∧
      Ending within ask wait late (rounds within ask wait s n)
        ((poll within ask wait late fuel).result s) ((poll within ask wait late fuel).final s) := by
  obtain ⟨n, -, hbefore, hend⟩ := poll.run s fuel
  have hn := hlimit n hbefore
  exact ⟨n, hn, hbefore, hend.resolve_left fun heq => by omega⟩

end rounds

end stepwise
