-- A list that keeps the first element of each key. Another label of the
-- elements may tell fewer of them apart than the key does.
import Mathlib.Data.List.Nodup

namespace first_of_key

variable {α κ ι : Type} [DecidableEq κ] (key : α → κ) (label : α → ι)

/-- Keep an element unless its key was seen. -/
def keepFirst : List κ → List α → List α
  | _, [] => []
  | seen, a :: rest =>
    if key a ∈ seen then keepFirst seen rest else a :: keepFirst (key a :: seen) rest

/-- No element before `a` has its key. -/
def IsFirst (l : List α) (a : α) : Prop :=
  ∃ before after, l = before ++ a :: after ∧ ∀ b ∈ before, key b ≠ key a

variable {key label} {seen : List κ} {l : List α} {a : α}

theorem mem_keepFirst_seen :
    a ∈ keepFirst key seen l ↔ key a ∉ seen ∧ IsFirst key l a := by
  induction l generalizing seen with
  | nil =>
    refine iff_of_false List.not_mem_nil ?_
    rintro ⟨-, before, after, h, -⟩
    simp at h
  | cons b rest ih =>
    unfold keepFirst
    have hrest : key b ≠ key a → (IsFirst key (b :: rest) a ↔ IsFirst key rest a) := by
      intro hb
      constructor
      · rintro ⟨before, after, h, hbefore⟩
        cases before with
        | nil =>
          cases h
          exact absurd rfl hb
        | cons c before =>
          cases h
          exact ⟨before, after, rfl, fun b hin => hbefore b (List.mem_cons_of_mem _ hin)⟩
      · rintro ⟨before, after, rfl, hbefore⟩
        exact ⟨b :: before, after, rfl, List.forall_mem_cons.2 ⟨hb, hbefore⟩⟩
    by_cases hseen : key b ∈ seen
    · rw [if_pos hseen, ih]
      constructor
      · rintro ⟨hnew, hfirst⟩
        have hb : key b ≠ key a := fun heq => hnew (heq ▸ hseen)
        exact ⟨hnew, (hrest hb).2 hfirst⟩
      · rintro ⟨hnew, hfirst⟩
        have hb : key b ≠ key a := fun heq => hnew (heq ▸ hseen)
        exact ⟨hnew, (hrest hb).1 hfirst⟩
    · rw [if_neg hseen, List.mem_cons, ih]
      constructor
      · rintro (rfl | ⟨hnew, hfirst⟩)
        · exact ⟨hseen, [], rest, rfl, by simp⟩
        · rw [List.mem_cons, not_or] at hnew
          exact ⟨hnew.2, (hrest (Ne.symm hnew.1)).2 hfirst⟩
      · rintro ⟨hnew, hfirst⟩
        by_cases hb : key b = key a
        · left
          obtain ⟨before, after, h, hbefore⟩ := hfirst
          cases before with
          | nil =>
            cases h
            rfl
          | cons c before =>
            cases h
            exact absurd hb (hbefore _ List.mem_cons_self)
        · right
          rw [List.mem_cons, not_or]
          exact ⟨⟨Ne.symm hb, hnew⟩, (hrest hb).1 hfirst⟩

theorem mem_keepFirst : a ∈ keepFirst key [] l ↔ IsFirst key l a := by
  rw [mem_keepFirst_seen]
  simp

theorem keepFirst_nodup : ((keepFirst key seen l).map key).Nodup := by
  induction l generalizing seen with
  | nil => exact List.nodup_nil
  | cons b rest ih =>
    unfold keepFirst
    split
    · exact ih
    · rw [List.map_cons, List.nodup_cons]
      refine ⟨?_, ih⟩
      intro hin
      obtain ⟨c, hc, heq⟩ := List.mem_map.1 hin
      exact (mem_keepFirst_seen.1 hc).1 (heq ▸ List.mem_cons_self)

/-- What is kept stands in its order. -/
theorem keepFirst_sublist : (keepFirst key seen l).Sublist l := by
  induction l generalizing seen with
  | nil => exact List.Sublist.refl _
  | cons b rest ih =>
    unfold keepFirst
    split
    · exact ih.cons b
    · exact ih.cons_cons b

/-- Elements of different keys are all kept. -/
theorem keepFirst_self (h : (l.map key).Nodup) (hnew : ∀ a ∈ l, key a ∉ seen) :
    keepFirst key seen l = l := by
  induction l generalizing seen with
  | nil => rfl
  | cons b rest ih =>
    rw [List.map_cons, List.nodup_cons] at h
    rw [List.forall_mem_cons] at hnew
    unfold keepFirst
    rw [if_neg hnew.1, ih h.2]
    intro a ha
    rw [List.mem_cons, not_or]
    exact ⟨fun heq => h.1 (heq ▸ List.mem_map_of_mem ha), hnew.2 a ha⟩

/-- A key that tells the same elements apart has the same first ones. -/
theorem isFirst_congr {κ' : Type} [DecidableEq κ'] {key' : α → κ'}
    (h : ∀ a ∈ l, ∀ b ∈ l, key a = key b ↔ key' a = key' b) :
    IsFirst key l a ↔ IsFirst key' l a := by
  constructor
  · rintro ⟨before, after, rfl, hbefore⟩
    refine ⟨before, after, rfl, fun b hb heq => hbefore b hb ?_⟩
    exact (h b (by simp [hb]) a (by simp)).2 heq
  · rintro ⟨before, after, rfl, hbefore⟩
    refine ⟨before, after, rfl, fun b hb heq => hbefore b hb ?_⟩
    exact (h b (by simp [hb]) a (by simp)).1 heq

theorem IsFirst.mem (h : IsFirst key l a) : a ∈ l := by
  obtain ⟨before, after, rfl, -⟩ := h
  simp

/-- The labels of what is kept differ exactly when those with one label have
one key. -/
theorem labels_nodup_iff : ((keepFirst key [] l).map label).Nodup ↔
    ∀ a b, IsFirst key l a → IsFirst key l b → label a = label b → key a = key b := by
  constructor
  · intro hnodup a b ha hb heq
    rw [List.inj_on_of_nodup_map hnodup (mem_keepFirst.2 ha) (mem_keepFirst.2 hb) heq]
  · intro h
    have hkept : (keepFirst key [] l).Nodup := keepFirst_nodup.of_map
    apply hkept.map_on
    intro a ha b hb heq
    exact List.inj_on_of_nodup_map keepFirst_nodup ha hb
      (h a b (mem_keepFirst.1 ha) (mem_keepFirst.1 hb) heq)

end first_of_key
