-- Order statistics. The value at a place of the sorted list is within a bound
-- exactly when more values than that are.
import Mathlib.Data.List.Sort

namespace quantile

variable {α : Type} [LinearOrder α]

/-- The value at this place of the list, once it is sorted. -/
def atRank (values : List α) (k : Nat) : Option α := (values.insertionSort (· ≤ ·))[k]?

/-- How many of the values are within the bound. -/
def within (bound : α) (values : List α) : Nat := values.countP fun x => x ≤ bound

theorem within_le_length (bound : α) (values : List α) : within bound values ≤ values.length :=
  List.countP_le_length

theorem within_cons (bound x : α) (values : List α) :
    within bound (x :: values) = within bound values + if x ≤ bound then 1 else 0 := by
  unfold within
  rw [List.countP_cons]
  simp only [decide_eq_true_eq]

theorem within_perm {values values' : List α} (h : values.Perm values') (bound : α) :
    within bound values = within bound values' := h.countP_eq _

/-- In a sorted list nothing after a value beyond the bound is within it. -/
theorem within_eq_zero {values : List α} {bound : α} (h : ∀ x ∈ values, bound < x) :
    within bound values = 0 := by
  unfold within
  rw [List.countP_eq_zero]
  intro x hx
  rw [decide_eq_true_eq, not_le]
  exact h x hx

theorem sorted_le_iff {values : List α} (h : values.Pairwise (· ≤ ·)) {k : Nat}
    (hk : k < values.length) (bound : α) : values[k] ≤ bound ↔ k < within bound values := by
  induction values generalizing k with
  | nil => exact absurd hk (Nat.not_lt_zero k)
  | cons x rest ih =>
    rw [List.pairwise_cons] at h
    rw [within_cons]
    by_cases hx : x ≤ bound
    · rw [if_pos hx]
      cases k with
      | zero => simp [hx]
      | succ k =>
        have hrest := ih h.2 (Nat.lt_of_succ_lt_succ hk)
        rw [List.getElem_cons_succ, hrest]
        omega
    · have hnone : within bound rest = 0 :=
        within_eq_zero fun y hy => lt_of_lt_of_le (not_le.1 hx) (h.1 y hy)
      have hlarge : ¬ (x :: rest)[k] ≤ bound := by
        intro hle
        rcases List.mem_cons.1 (List.getElem_mem hk) with heq | hin
        · exact hx (heq ▸ hle)
        · exact hx (le_trans (h.1 _ hin) hle)
      rw [if_neg hx, hnone]
      exact iff_of_false hlarge (Nat.not_lt_zero k)

theorem atRank_le_iff {values : List α} {k : Nat} (hk : k < values.length) (bound : α) :
    ∃ x, atRank values k = some x ∧ (x ≤ bound ↔ k < within bound values) := by
  have hsorted := List.pairwise_insertionSort (α := α) (· ≤ ·) values
  have hperm := List.perm_insertionSort (α := α) (· ≤ ·) values
  have hk' : k < (values.insertionSort (· ≤ ·)).length := hperm.length_eq ▸ hk
  refine ⟨_, List.getElem?_eq_getElem hk', ?_⟩
  rw [sorted_le_iff hsorted hk', within_perm hperm]

end quantile
