-- Two machines that get the same inputs, one after the other. An observer
-- sees their answers. Whether the machines can be told apart in a run comes
-- down to what one step can do in two states that are related.
import Mathlib.Data.List.Induction

namespace lockstep

variable {σ τ ι ω : Type}

structure Machine (σ ι ω : Type) where
  start : σ
  step : σ → ι → σ × ω

namespace Machine

def after (m : Machine σ ι ω) (inputs : List ι) : σ :=
  inputs.foldl (fun s i => (m.step s i).1) m.start

/-- The answer to an input after the inputs `before`. -/
def answer (m : Machine σ ι ω) (before : List ι) (i : ι) : ω := (m.step (m.after before) i).2

@[simp] theorem after_nil (m : Machine σ ι ω) : m.after [] = m.start := rfl

@[simp] theorem after_concat (m : Machine σ ι ω) (before : List ι) (i : ι) :
    m.after (before ++ [i]) = (m.step (m.after before) i).1 := by
  simp [after]

end Machine

/-- All answers of the run are the same. -/
def Alike (m : Machine σ ι ω) (m' : Machine τ ι ω) (inputs : List ι) : Prop :=
  ∀ before i, before ++ [i] <+: inputs → m.answer before i = m'.answer before i

/-- Every step of the run meets a condition on the state before it. -/
def Throughout (m : Machine σ ι ω) (fine : σ → ι → Prop) (inputs : List ι) : Prop :=
  ∀ before i, before ++ [i] <+: inputs → fine (m.after before) i

/-- What holds at the start, and goes on over each step of the run, holds
after each part of the run. -/
theorem along {P : List ι → Prop} {inputs : List ι} (hstart : P [])
    (hstep : ∀ before i, before ++ [i] <+: inputs → P before → P (before ++ [i])) :
    ∀ before, before <+: inputs → P before := by
  intro before
  induction before using List.reverseRecOn with
  | nil => exact fun _ => hstart
  | append_singleton before i ih =>
    intro hpart
    exact hstep before i hpart (ih ((List.prefix_append before [i]).trans hpart))

variable {m : Machine σ ι ω} {m' : Machine τ ι ω} {inputs : List ι}

theorem throughout_nil (m : Machine σ ι ω) (fine : σ → ι → Prop) : Throughout m fine [] := by
  intro before i hpart
  simpa using List.IsPrefix.length_le hpart

theorem throughout_concat {fine : σ → ι → Prop} (inputs : List ι) {i : ι}
    (h : Throughout m fine inputs) (hlast : fine (m.after inputs) i) : Throughout m fine (inputs ++ [i]) := by
  intro before i' hpart
  rcases List.prefix_concat_iff.1 hpart with heq | hpart
  · obtain ⟨rfl, hi⟩ := List.append_inj' heq rfl
    rw [List.singleton_inj.1 hi]
    exact hlast
  · exact h before i' hpart

/-- If in related states the answers are the same exactly when the step is
fine, and a fine step leads to related states, then the runs are alike
exactly when all their steps are fine. -/
theorem alike_iff (related : List ι → σ → τ → Prop) (fine : σ → ι → Prop)
    (hstart : related [] m.start m'.start)
    (hanswer : ∀ before i, before ++ [i] <+: inputs →
      related before (m.after before) (m'.after before) →
        (m.answer before i = m'.answer before i ↔ fine (m.after before) i))
    (hnext : ∀ before i, before ++ [i] <+: inputs →
      related before (m.after before) (m'.after before) → fine (m.after before) i →
        related (before ++ [i]) (m.after (before ++ [i])) (m'.after (before ++ [i]))) :
    Alike m m' inputs ↔ Throughout m fine inputs := by
  constructor
  · intro halike
    have hrelated := along (P := fun before => related before (m.after before) (m'.after before))
      hstart fun before i hpart h =>
        hnext before i hpart h ((hanswer before i hpart h).1 (halike before i hpart))
    intro before i hpart
    have hbefore := hrelated before ((List.prefix_append before [i]).trans hpart)
    exact (hanswer before i hpart hbefore).1 (halike before i hpart)
  · intro hfine
    have hrelated := along (P := fun before => related before (m.after before) (m'.after before))
      hstart fun before i hpart h => hnext before i hpart h (hfine before i hpart)
    intro before i hpart
    have hbefore := hrelated before ((List.prefix_append before [i]).trans hpart)
    exact (hanswer before i hpart hbefore).2 (hfine before i hpart)

end lockstep
