-- A process that writes its state step by step. It may stop after any of
-- the writes of a call, and it comes up again from what it had saved by then.
import BidEvaluation.Lib.Stepwise

open stepwise

namespace crash_lib

variable {σ δ ι κ : Type}

/-- A call that runs to its end, or one in which the process stops after some
of the writes. `how` is what the outside decides when it comes up again. -/
inductive Event (ι κ : Type) where
  | done (call : ι)
  | stopped (call : ι) (writes : Nat) (how : κ)

section run

variable (writes : ι → σ → List σ) (restart : κ → σ → σ)

/-- Every state of an event. The last one of a stop is the one that the
process comes up in. -/
def Event.states (s : σ) : Event ι κ → List σ
  | .done call => writes call s
  | .stopped call n how =>
    (writes call s).take n ++ [restart how (lastState s ((writes call s).take n))]

/-- Every state of a run, oldest first. -/
def states : σ → List (Event ι κ) → List σ
  | _, [] => []
  | s, event :: rest =>
    event.states writes restart s ++ states (lastState s (event.states writes restart s)) rest

/-- The state after a run. -/
def run (s : σ) (events : List (Event ι κ)) : σ := lastState s (states writes restart s events)

end run

variable {writes : ι → σ → List σ} {restart : κ → σ → σ} {R : σ → σ → Prop} {I : σ → Prop}

/-! ## Invariants -/

theorem Event.states_invariant {s : σ} (hcall : ∀ call s, I s → Steps R s (writes call s))
    (hstep : ∀ a b, R a b → I a → I b) (hrestart : ∀ how s, I s → I (restart how s)) (hs : I s)
    (event : Event ι κ) : ∀ t ∈ event.states writes restart s, I t := by
  intro t ht
  cases event with
  | done call => exact (hcall call s hs).invariant hstep hs t ht
  | stopped call n how =>
    have htaken := (hcall call s hs).take n
    rcases List.mem_append.1 ht with hin | hin
    · exact htaken.invariant hstep hs t hin
    · rw [List.mem_singleton.1 hin]
      exact hrestart how _ (htaken.invariant_last hstep hs)

theorem last_of_all {s : σ} {l : List σ} (hs : I s) (hall : ∀ t ∈ l, I t) : I (lastState s l) := by
  unfold lastState
  rcases hl : l.getLast? with _ | t
  · exact hs
  · exact hall t (List.mem_of_getLast? hl)

/-- The state after a run is one of its states, unless it has none. -/
theorem run_mem {s : σ} {events : List (Event ι κ)}
    (h : (states writes restart s events).isEmpty = false) :
    run writes restart s events ∈ states writes restart s events := by
  unfold run lastState
  rcases hl : (states writes restart s events).getLast? with _ | t
  · rw [List.getLast?_eq_none_iff.1 hl] at h
    cases h
  · exact List.mem_of_getLast? hl

/-- What each write keeps, and each restart, holds in every state of a run. -/
theorem states_invariant (hcall : ∀ call s, I s → Steps R s (writes call s))
    (hstep : ∀ a b, R a b → I a → I b) (hrestart : ∀ how s, I s → I (restart how s))
    (events : List (Event ι κ)) {s : σ} (hs : I s) : ∀ t ∈ states writes restart s events, I t := by
  induction events generalizing s with
  | nil => simp [states]
  | cons event rest ih =>
    have hevent := event.states_invariant hcall hstep hrestart hs
    intro t ht
    rcases List.mem_append.1 ht with hin | hin
    · exact hevent t hin
    · exact ih (last_of_all hs hevent) t hin

theorem run_invariant (hcall : ∀ call s, I s → Steps R s (writes call s))
    (hstep : ∀ a b, R a b → I a → I b) (hrestart : ∀ how s, I s → I (restart how s))
    (events : List (Event ι κ)) {s : σ} (hs : I s) : I (run writes restart s events) :=
  last_of_all hs (states_invariant hcall hstep hrestart events hs)

/-! ## Snapshots

The state has a memory and a snapshot. A write leaves the snapshot or makes
it the memory. `P s d` says that `d` is a good memory when the rest of the
state is that of `s`. -/

section snapshots

variable (memory saved : σ → δ) (P : σ → δ → Prop)

/-- The memory is good, and so is what a restart would find. -/
structure Sound (s : σ) : Prop where
  memory : P s (memory s)
  saved : P s (saved s)

/-- A write that saves or does not, and keeps a memory good. -/
structure Careful (a b : σ) : Prop where
  saves : saved b = saved a ∨ saved b = memory b
  keeps : P a (memory a) → P b (memory b)
  grows : ∀ d, P a d → P b d

variable {memory saved P}

theorem Careful.sound {a b : σ} (h : Careful memory saved P a b) (ha : Sound memory saved P a) :
    Sound memory saved P b := by
  have hmemory := h.keeps ha.memory
  refine ⟨hmemory, ?_⟩
  rcases h.saves with hsame | hsaved
  · rw [hsame]
    exact h.grows _ ha.saved
  · rw [hsaved]
    exact hmemory

end snapshots

end crash_lib
