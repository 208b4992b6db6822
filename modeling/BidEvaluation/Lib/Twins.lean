-- One text of code on two states. Started in related states the two programs
-- end alike, in related states.
import BidEvaluation.Lib.Stepwise

open stepwise

namespace twins

variable {σ τ ε α β : Type} {R : σ → τ → Prop} {P P' : σ → Prop}

/-- `P` is what holds of the first state besides, and `Q` what a value that
both return says about the state in which the first program ends. -/
def Twins (R : σ → τ → Prop) (P : σ → Prop) (m : Prog σ ε α) (m' : Prog τ ε α)
    (Q : α → σ → Prop) : Prop :=
  ∀ s t, R s t → P s →
    m.result s = m'.result t ∧ R (m.final s) (m'.final t) ∧ ∀ a, m.result s = .ok a → Q a (m.final s)

variable {m : Prog σ ε α} {m' : Prog τ ε α} {f : α → Prog σ ε β} {g : α → Prog τ ε β}
  {Q Q' : α → σ → Prop} {Q₂ : β → σ → Prop}

theorem twins_pure (a : α) (h : ∀ s, P s → Q a s) :
    Twins R P (pure a : Prog σ ε α) (pure a : Prog τ ε α) Q := by
  intro s t hR hP
  refine ⟨rfl, hR, fun b hb => ?_⟩
  cases hb
  exact h s hP

theorem twins_raise (e : ε) : Twins R P (raise e : Prog σ ε α) (raise e : Prog τ ε α) Q :=
  fun _ _ hR _ => ⟨rfl, hR, fun _ ha => by cases ha⟩

theorem Twins.bind (h : Twins R P m m' Q) (hf : ∀ a, Twins R (Q a) (f a) (g a) Q₂) :
    Twins R P (m >>= f) (m' >>= g) Q₂ := by
  intro s t hR hP
  obtain ⟨hresult, hfinal, hvalue⟩ := h s t hR hP
  rcases hr : m.result s with e | a
  · rw [result_bind_error hr, final_bind_error hr, result_bind_error (hresult.symm.trans hr),
      final_bind_error (hresult.symm.trans hr)]
    exact ⟨rfl, hfinal, fun _ hb => by cases hb⟩
  · rw [result_bind hr, final_bind hr, result_bind (hresult.symm.trans hr),
      final_bind (hresult.symm.trans hr)]
    exact hf a _ _ hfinal (hvalue a hr)

theorem Twins.mono (h : Twins R P m m' Q) (hP : ∀ s, P' s → P s) (hQ : ∀ a s, Q a s → Q' a s) :
    Twins R P' m m' Q' := by
  intro s t hR hP'
  obtain ⟨hresult, hfinal, hvalue⟩ := h s t hR (hP s hP')
  exact ⟨hresult, hfinal, fun a ha => hQ a _ (hvalue a ha)⟩

/-- What `P` says about no state can be used before the run. -/
theorem twins_given {c : Prop} (hc : ∀ s, P s → c) (h : c → Twins R P m m' Q) : Twins R P m m' Q :=
  fun s t hR hP => h (hc s hP) s t hR hP

theorem twins_ite {c : Prop} [Decidable c] {m₁ m₂ : Prog σ ε α} {m₁' m₂' : Prog τ ε α}
    (h₁ : c → Twins R P m₁ m₁' Q) (h₂ : ¬c → Twins R P m₂ m₂' Q) :
    Twins R P (if c then m₁ else m₂) (if c then m₁' else m₂') Q := by
  split
  · rename_i hc
    exact h₁ hc
  · rename_i hc
    exact h₂ hc

/-! ## The end of a run that parts them -/

/-- Started in related states the programs end in states with `D`. -/
def Parts (R : σ → τ → Prop) (P : σ → Prop) (m : Prog σ ε α) (m' : Prog τ ε α)
    (D : σ → τ → Prop) : Prop :=
  ∀ s t, R s t → P s → D (m.final s) (m'.final t)

theorem Twins.parts {D : σ → τ → Prop} (h : Twins R P m m' Q)
    (hreturns : ∀ s, P s → ∃ a, m.result s = .ok a) (hf : ∀ a, Parts R (Q a) (f a) (g a) D) :
    Parts R P (m >>= f) (m' >>= g) D := by
  intro s t hR hP
  obtain ⟨hresult, hfinal, hvalue⟩ := h s t hR hP
  obtain ⟨a, ha⟩ := hreturns s hP
  rw [final_bind ha, final_bind (hresult.symm.trans ha)]
  exact hf a _ _ hfinal (hvalue a ha)

end twins
