-- A circuit breaker over the events of a guarded call. It counts failures in
-- a row. Once they reach the threshold, no attempt may come until the reset
-- time has gone by since the failure that reached it.
import Mathlib.Algebra.Order.Group.Defs

namespace breaker

/-! ## The breaker -/

inductive Event (τ : Type) where
  | attempted (at' : τ)
  | failed (at' : τ)
  | succeeded (at' : τ)

/-- The failures in a row, and when they reached the threshold. -/
structure Breaker (τ : Type) where
  consecutive : Nat
  reached_at : Option τ

variable {τ : Type} [LinearOrder τ] [Add τ]

def closed : Breaker τ := ⟨0, none⟩

/-- One more event. An attempt after the reset time begins a new count. -/
def saw (threshold : Nat) (reset : τ) (b : Breaker τ) : Event τ → Breaker τ
  | .attempted t =>
    match b.reached_at with
    | none => b
    | some reached => if reached + reset ≤ t then closed else b
  | .failed t =>
    { consecutive := b.consecutive + 1
      reached_at := if threshold ≤ b.consecutive + 1 then b.reached_at.or (some t)
        else b.reached_at }
  | .succeeded _ => closed

/-- The breaker after some events. -/
def seen (threshold : Nat) (reset : τ) (events : List (Event τ)) : Breaker τ :=
  events.foldl (saw threshold reset) closed

/-- No attempt comes while the breaker is open. -/
def Stops (threshold : Nat) (reset : τ) (events : List (Event τ)) : Prop :=
  ∀ before t after, events = before ++ .attempted t :: after →
    ∀ reached, (seen threshold reset before).reached_at = some reached → reached + reset ≤ t

variable {threshold : Nat} {reset : τ} {b : Breaker τ} {events later : List (Event τ)}

/-! ## One event after another -/

/-- Whether the breaker lets an event through. -/
def Allowed (reset : τ) (b : Breaker τ) : Event τ → Prop
  | .attempted t => ∀ reached, b.reached_at = some reached → reached + reset ≤ t
  | _ => True

/-- Whether it lets each one through of those that come next. -/
def AllAllowed (threshold : Nat) (reset : τ) : Breaker τ → List (Event τ) → Prop
  | _, [] => True
  | b, e :: rest => Allowed reset b e ∧ AllAllowed threshold reset (saw threshold reset b e) rest

theorem all_allowed_append : AllAllowed threshold reset b (events ++ later) ↔
    AllAllowed threshold reset b events ∧
      AllAllowed threshold reset (events.foldl (saw threshold reset) b) later := by
  induction events generalizing b with
  | nil => exact (and_iff_right trivial).symm
  | cons e rest ih =>
    rw [List.cons_append, AllAllowed, AllAllowed, ih, List.foldl_cons, and_assoc]

/-- Events that are let through one by one never pass an open breaker. -/
theorem stops_of_all_allowed (h : AllAllowed threshold reset closed events) :
    Stops threshold reset events := by
  rintro before t after rfl reached hreached
  exact (all_allowed_append.1 h).2.1 reached hreached

/-! ## The breaker is closed -/

/-- A closed breaker lets an attempt through and does not change. -/
theorem saw_attempted (h : b.reached_at = none) (t : τ) :
    saw threshold reset b (.attempted t) = b := by
  unfold saw
  rw [h]

theorem allowed_of_closed (h : b.reached_at = none) (e : Event τ) : Allowed reset b e := by
  cases e with
  | attempted t =>
    intro reached hreached
    rw [h] at hreached
    cases hreached
  | _ => trivial

/-- An attempt after the reset time closes the breaker. -/
theorem saw_attempted_late {reached t : τ} (h : b.reached_at = some reached)
    (ht : reached + reset ≤ t) : saw threshold reset b (.attempted t) = closed := by
  unfold saw
  rw [h]
  exact if_pos ht

theorem allowed_late {reached t : τ} (h : b.reached_at = some reached) (ht : reached + reset ≤ t) :
    Allowed reset b (.attempted t) := by
  intro other hother
  rw [h] at hother
  cases hother
  exact ht

end breaker
