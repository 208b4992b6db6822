-- One pass over a list that removes items until their total size is within a
-- budget. Each group of items keeps a floor: an item of a group that is down
-- to it is passed over. Where the list is sorted, what the pass removes comes
-- before all that a group above the floor keeps.
import Mathlib.Algebra.Ring.Int.Defs
import Mathlib.Data.Finset.Insert
import Mathlib.Algebra.BigOperators.Group.List.Basic
import Mathlib.Data.List.Nodup

namespace sweep

variable {ρ γ : Type} [DecidableEq ρ] [DecidableEq γ]

/-! ## The pass -/

/-- The items that were not removed. -/
def left (items : List ρ) (removed : Finset ρ) : List ρ := items.filter (· ∉ removed)

def remaining (group : ρ → γ) (items : List ρ) (removed : Finset ρ) (g : γ) : Nat :=
  (left items removed).countP fun r => group r = g

/-- What is removed so far, and the size of what is left. -/
structure Pass (ρ : Type) where
  removed : Finset ρ
  total : Int

def pass (group : ρ → γ) (size : ρ → Int) (items : List ρ) (budget : Int) (floor : Nat) :
    List ρ → Pass ρ → Pass ρ
  | [], p => p
  | r :: rest, p =>
    if p.total ≤ budget then p
    else if remaining group items p.removed (group r) ≤ floor then
      pass group size items budget floor rest p
    else pass group size items budget floor rest ⟨insert r p.removed, p.total - size r⟩

variable {group : ρ → γ} {size : ρ → Int} {items : List ρ} {budget : Int} {floor : Nat}
  {removed : Finset ρ} {r : ρ}

/-! ## One more removal -/

theorem left_insert (hnodup : items.Nodup) (r : ρ) (removed : Finset ρ) :
    left items (insert r removed) = (left items removed).erase r := by
  unfold left
  rw [(hnodup.filter _).erase_eq_filter, List.filter_filter]
  refine List.filter_congr fun x _ => ?_
  by_cases hx : x = r
  · simp [hx]
  · simp [hx]

theorem mem_left : r ∈ left items removed ↔ r ∈ items ∧ r ∉ removed := by simp [left]

theorem remaining_insert (hnodup : items.Nodup) (hin : r ∈ left items removed) (g : γ) :
    remaining group items (insert r removed) g =
      remaining group items removed g - if group r = g then 1 else 0 := by
  unfold remaining
  rw [left_insert hnodup, List.countP_erase]
  simp [hin]

theorem total_insert (hnodup : items.Nodup) (hin : r ∈ left items removed) :
    ((left items (insert r removed)).map size).sum =
      ((left items removed).map size).sum - size r := by
  have hsum := List.sum_map_erase size hin
  rw [left_insert hnodup]
  omega

theorem remaining_le_insert (group : ρ → γ) (hnodup : items.Nodup) (hin : r ∈ left items removed)
    (g : γ) :
    remaining group items (insert r removed) g ≤ remaining group items removed g := by
  rw [remaining_insert hnodup hin]
  omega

/-! ## The invariant of the pass -/

/-- After the items of `done`, in a pass over `items`. -/
structure Going (group : ρ → γ) (size : ρ → Int) (items : List ρ) (floor : Nat) (done : List ρ)
    (p : Pass ρ) : Prop where
  within : ∀ r ∈ p.removed, r ∈ done
  taken : ∀ r ∈ done, floor < remaining group items p.removed (group r) → r ∈ p.removed
  floored : ∀ g, min floor (remaining group items ∅ g) ≤ remaining group items p.removed g
  total : p.total = ((left items p.removed).map size).sum

variable {p : Pass ρ} {done rest : List ρ}

theorem going_start : Going group size items floor [] ⟨∅, (items.map size).sum⟩ where
  within r hr := absurd hr (Finset.notMem_empty r)
  taken r hr := by cases hr
  floored g := Nat.min_le_right _ _
  total := by simp [left]

/-- An item of a group at the floor is passed over. -/
theorem Going.passes (h : Going group size items floor done p)
    (hfloor : remaining group items p.removed (group r) ≤ floor) :
    Going group size items floor (done ++ [r]) p where
  within x hx := List.mem_append_left _ (h.within x hx)
  taken x hx habove := by
    rcases List.mem_append.1 hx with hin | heq
    · exact h.taken x hin habove
    · rw [List.mem_singleton.1 heq] at habove
      omega
  floored := h.floored
  total := h.total

theorem Going.removes (h : Going group size items floor done p) (hnodup : items.Nodup)
    (hin : r ∈ left items p.removed)
    (habove : floor < remaining group items p.removed (group r)) :
    Going group size items floor (done ++ [r]) ⟨insert r p.removed, p.total - size r⟩ where
  within x hx := by
    rcases Finset.mem_insert.1 hx with rfl | hx
    · exact List.mem_append_right _ (List.mem_singleton_self _)
    · exact List.mem_append_left _ (h.within x hx)
  taken x hx hstill := by
    rcases List.mem_append.1 hx with hin' | heq
    · have hle := remaining_le_insert group hnodup hin (group x)
      exact Finset.mem_insert_of_mem (h.taken x hin' (lt_of_lt_of_le hstill hle))
    · rw [List.mem_singleton.1 heq]
      exact Finset.mem_insert_self _ _
  floored g := by
    have hfloor := h.floored g
    rw [remaining_insert hnodup hin]
    by_cases hg : group r = g
    · rw [if_pos hg]
      rw [hg] at habove
      omega
    · rw [if_neg hg]
      exact hfloor
  total := by
    rw [total_insert hnodup hin, ← h.total]

/-- The pass ends within the budget, or it went over all items. -/
theorem Going.pass (budget : Int) (h : Going group size items floor done p) (hnodup : items.Nodup)
    (hrest : (done ++ rest).Nodup) (hitems : ∀ r ∈ rest, r ∈ items) :
    ∃ passed, passed <+: rest ∧
      Going group size items floor (done ++ passed) (pass group size items budget floor rest p) ∧
        ((pass group size items budget floor rest p).total ≤ budget ∨ passed = rest) := by
  induction rest generalizing done p with
  | nil => exact ⟨[], List.prefix_refl _, by rw [List.append_nil]; exact h, .inr rfl⟩
  | cons r rest ih =>
    unfold sweep.pass
    by_cases hbudget : p.total ≤ budget
    · rw [if_pos hbudget]
      exact ⟨[], List.nil_prefix, by rw [List.append_nil]; exact h, .inl hbudget⟩
    rw [if_neg hbudget]
    have hnext : (done ++ [r] ++ rest).Nodup := by
      rw [List.append_assoc]
      exact hrest
    have hlater : ∀ x ∈ rest, x ∈ items := fun x hx => hitems x (List.mem_cons_of_mem r hx)
    -- the item was not removed before: it is not one of those gone over
    have hin : r ∈ left items p.removed := by
      refine mem_left.2 ⟨hitems r List.mem_cons_self, fun hr => ?_⟩
      exact List.disjoint_of_nodup_append hrest (h.within r hr) List.mem_cons_self
    have hgo : ∀ {p' : Pass ρ}, Going group size items floor (done ++ [r]) p' →
        ∃ passed, passed <+: r :: rest ∧
          Going group size items floor (done ++ passed)
            (sweep.pass group size items budget floor rest p') ∧
              ((sweep.pass group size items budget floor rest p').total ≤ budget ∨
                passed = r :: rest) := by
      intro p' h'
      obtain ⟨passed, hpassed, hgoing, hend⟩ := ih h' hnext hlater
      refine ⟨r :: passed, List.cons_prefix_cons.2 ⟨rfl, hpassed⟩, ?_, ?_⟩
      · rw [List.append_assoc] at hgoing
        exact hgoing
      · exact hend.imp id fun hall => by rw [hall]
    split
    · exact hgo (h.passes (by assumption))
    · exact hgo (h.removes hnodup hin (by omega))

/-! ## What a whole pass does -/

/-- The end of a pass over a sorted list of the items. -/
structure Swept {α : Type} [LE α] (group : ρ → γ) (size : ρ → Int) (score : ρ → α) (items : List ρ)
    (budget : Int) (floor : Nat) (removed : Finset ρ) : Prop where
  floored : ∀ g, min floor (remaining group items ∅ g) ≤ remaining group items removed g
  enough : ((left items removed).map size).sum ≤ budget ∨
    ∀ g, remaining group items removed g ≤ floor
  lowest : ∀ r ∈ removed, ∀ kept ∈ left items removed,
    floor < remaining group items removed (group kept) → score r ≤ score kept

theorem remaining_pos {g : γ} (h : 0 < remaining group items removed g) :
    ∃ r ∈ left items removed, group r = g := by
  obtain ⟨r, hr, hg⟩ := List.countP_pos_iff.1 h
  exact ⟨r, hr, by simpa using hg⟩

theorem pass_sweeps {α : Type} [Preorder α] {score : ρ → α} {order : List ρ}
    (hnodup : items.Nodup) (hperm : order.Perm items)
    (hsorted : order.Pairwise fun a b => score a ≤ score b) :
    Swept group size score items budget floor
      (pass group size items budget floor order ⟨∅, (items.map size).sum⟩).removed := by
  have hstart : Going group size items floor [] ⟨∅, (items.map size).sum⟩ := going_start
  have horder : ([] ++ order).Nodup := by
    rw [List.nil_append]
    exact hperm.nodup_iff.2 hnodup
  obtain ⟨passed, hpassed, hgoing, hend⟩ :=
    hstart.pass budget hnodup horder fun r hr => hperm.mem_iff.1 hr
  rw [List.nil_append] at hgoing
  generalize pass group size items budget floor order ⟨∅, (items.map size).sum⟩ = p at hgoing hend ⊢
  refine ⟨hgoing.floored, ?_, ?_⟩
  · rcases hend with hbudget | rfl
    · exact .inl (hgoing.total ▸ hbudget)
    · -- all items were gone over, so a group above the floor has none left
      refine .inr fun g => ?_
      by_contra habove
      have hsome : 0 < remaining group items p.removed g := by omega
      obtain ⟨r, hr, rfl⟩ := remaining_pos hsome
      obtain ⟨hin, hnot⟩ := mem_left.1 hr
      exact hnot (hgoing.taken r (hperm.mem_iff.2 hin) (by omega))
  · intro r hr kept hkept habove
    obtain ⟨later, rfl⟩ := hpassed
    obtain ⟨hin, hnot⟩ := mem_left.1 hkept
    have hlater : kept ∈ later := by
      rcases List.mem_append.1 (hperm.mem_iff.2 hin) with hdone | hlater
      · exact absurd (hgoing.taken kept hdone habove) hnot
      · exact hlater
    exact (List.pairwise_append.1 hsorted).2.2 r (hgoing.within r hr) kept hlater

end sweep
