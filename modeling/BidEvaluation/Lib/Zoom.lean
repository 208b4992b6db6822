-- A program that works on a part of the state. What it writes to the part is
-- written to the whole, and the rest stays.
import BidEvaluation.Lib.Stepwise

open stepwise

namespace zoom

variable {σ τ ε α : Type}

/-- Run a program on the part that `get` reads and `put` writes. -/
def zoomed (get : τ → σ) (put : τ → σ → τ) (m : Prog σ ε α) : Prog τ ε α := fun t =>
  ((m.written (get t)).map (put t), m.result (get t))

theorem result_zoomed (get : τ → σ) (put : τ → σ → τ) (m : Prog σ ε α) (t : τ) :
    (zoomed get put m).result t = m.result (get t) := rfl

theorem final_zoomed {get : τ → σ} {put : τ → σ → τ} (m : Prog σ ε α) {t : τ} (hput : put t (get t) = t) :
    (zoomed get put m).final t = put t (m.final (get t)) := by
  have hlast := lastState_map (put t) (get t) (m.written (get t))
  rw [hput] at hlast
  exact hlast

/-- What holds at the end of the part holds at the end of the whole. -/
theorem meets_zoomed {get : τ → σ} {put : τ → σ → τ} {m : Prog σ ε α} {t : τ} (hput : put t (get t) = t)
    {Q : Except ε α → τ → Prop} : Meets (fun _ _ => True) (zoomed get put m) t Q ↔
      Q (m.result (get t)) (put t (m.final (get t))) := by
  unfold Meets
  rw [final_zoomed m hput, result_zoomed]
  exact and_iff_right (steps_true _ _)

/-- Steps of the part are steps of the whole. -/
theorem steps_zoomed {get : τ → σ} {put : τ → σ → τ} {m : Prog σ ε α} {t : τ} (hput : put t (get t) = t)
    {R : σ → σ → Prop} {S : τ → τ → Prop} (hS : ∀ a b, R a b → S (put t a) (put t b))
    (h : Steps R (get t) (m.written (get t))) : Steps S t ((zoomed get put m).written t) := by
  have hmap : ∀ (s : σ) (l : List σ), Steps R s l → Steps S (put t s) (l.map (put t)) := by
    intro s l hl
    induction l generalizing s with
    | nil => trivial
    | cons a rest ih => exact ⟨hS s a hl.1, ih a hl.2⟩
  have hall := hmap (get t) _ h
  rw [hput] at hall
  exact hall

end zoom
