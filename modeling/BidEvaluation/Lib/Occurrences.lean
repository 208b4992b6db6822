-- Parts of a list, and where they occur in it. Parts that were put one after
-- the other stay in order when the whole is trimmed or becomes a part of more.
import Mathlib.Data.List.DropRight
import Mathlib.Data.List.Forall2
import Mathlib.Data.List.TakeWhile

namespace occurrences

variable {α : Type} {part whole : List α} {parts : List (List α)} {offset : Nat} {offsets : List Nat}

/-- The part stands in the whole from the offset on. -/
def OccursAt (part whole : List α) (offset : Nat) : Prop :=
  ∃ before rest, whole = before ++ part ++ rest ∧ before.length = offset

theorem occurs_at_end (whole part : List α) : OccursAt part (whole ++ part) whole.length :=
  ⟨whole, [], by rw [List.append_nil], rfl⟩

theorem OccursAt.append (h : OccursAt part whole offset) (more : List α) :
    OccursAt part (whole ++ more) offset := by
  obtain ⟨before, rest, rfl, hlength⟩ := h
  exact ⟨before, rest ++ more, by simp only [List.append_assoc], hlength⟩

theorem OccursAt.behind (h : OccursAt part whole offset) (first : List α) :
    OccursAt part (first ++ whole) (first.length + offset) := by
  obtain ⟨before, rest, rfl, rfl⟩ := h
  exact ⟨first ++ before, rest, by simp only [List.append_assoc], List.length_append⟩

theorem OccursAt.end_le (h : OccursAt part whole offset) : offset + part.length ≤ whole.length := by
  obtain ⟨before, rest, rfl, rfl⟩ := h
  simp only [List.length_append]
  omega

theorem not_occurs_in_nil (h : part ≠ []) : ¬OccursAt part [] offset := by
  intro hoccurs
  have hend := hoccurs.end_le
  have hlength := List.length_pos_of_ne_nil h
  rw [List.length_nil] at hend
  omega

/-! ## Trimming -/

section trim

variable {p : α → Bool}

/-- Without the first and the last elements that meet `p`. -/
def trim (p : α → Bool) (l : List α) : List α := (l.dropWhile p).rdropWhile p

/-- How many first elements meet `p`. -/
def lead (p : α → Bool) (l : List α) : Nat := (l.takeWhile p).length

/-- The list is not empty, and neither end meets `p`. -/
structure Solid (p : α → Bool) (part : List α) : Prop where
  nonempty : part ≠ []
  first : p (part.head nonempty) = false
  last : p (part.getLast nonempty) = false

theorem solid_trim {l : List α} (h : trim p l ≠ []) : Solid p (trim p l) := by
  have hpart : trim p l <+: l.dropWhile p := List.rdropWhile_prefix p _
  have hlong : l.dropWhile p ≠ [] := fun hnil => h (List.prefix_nil.1 (hnil ▸ hpart))
  refine ⟨h, ?_, ?_⟩
  · obtain ⟨rest, hrest⟩ := hpart
    have hhead : (trim p l).head h = (l.dropWhile p).head hlong := by
      simp only [← hrest, List.head_append_left h]
    rw [hhead]
    simpa using List.head_dropWhile_not p hlong
  · have hlast := List.rdropWhile_last_not p (l.dropWhile p) h
    exact Bool.eq_false_iff.2 hlast

/-- The elements in front of a solid part are no fewer than those that are
dropped, so the part stays. -/
theorem OccursAt.drop_front (hsolid : Solid p part) (h : OccursAt part whole offset) :
    lead p whole ≤ offset ∧ OccursAt part (whole.dropWhile p) (offset - lead p whole) := by
  obtain ⟨before, rest, rfl, rfl⟩ := h
  obtain ⟨c, tail, rfl⟩ := List.exists_cons_of_ne_nil hsolid.nonempty
  have hc : p c = false := hsolid.first
  unfold lead
  induction before with
  | nil =>
    simp only [List.nil_append, List.cons_append, List.takeWhile_cons, List.dropWhile_cons, hc,
      Bool.false_eq_true, if_false]
    exact ⟨Nat.le_refl _, [], rest, rfl, rfl⟩
  | cons d before ih =>
    simp only [List.cons_append, List.takeWhile_cons, List.dropWhile_cons]
    split
    · simpa using ih
    · exact ⟨Nat.zero_le _, d :: before, rest, rfl, rfl⟩

theorem OccursAt.drop_back (hsolid : Solid p part) (h : OccursAt part whole offset) :
    OccursAt part (whole.rdropWhile p) offset := by
  obtain ⟨before, rest, rfl, rfl⟩ := h
  induction rest using List.reverseRecOn with
  | nil =>
    refine ⟨before, [], ?_, rfl⟩
    simp only [List.append_nil]
    have hend : before ++ part ≠ [] := List.append_ne_nil_of_right_ne_nil before hsolid.nonempty
    rw [List.rdropWhile_eq_self_iff]
    intro _
    rw [List.getLast_append_of_ne_nil hend hsolid.nonempty, hsolid.last]
    decide
  | append_singleton rest c ih =>
    rw [← List.append_assoc]
    by_cases hc : p c = true
    · rw [List.rdropWhile_concat_pos _ _ _ hc]
      exact ih
    · rw [List.rdropWhile_concat_neg _ _ _ hc]
      exact ⟨before, rest ++ [c], by simp only [List.append_assoc], rfl⟩

theorem OccursAt.trim (hsolid : Solid p part) (h : OccursAt part whole offset) :
    lead p whole ≤ offset ∧ OccursAt part (trim p whole) (offset - lead p whole) := by
  obtain ⟨hle, hfront⟩ := h.drop_front hsolid
  exact ⟨hle, hfront.drop_back hsolid⟩

end trim

/-! ## Parts in order -/

/-- The parts occur at the offsets, which increase. -/
structure InOrder (whole : List α) (parts : List (List α)) (offsets : List Nat) : Prop where
  occur : List.Forall₂ (fun part offset => OccursAt part whole offset) parts offsets
  increasing : offsets.Pairwise (· < ·)

theorem in_order_nil (whole : List α) : InOrder whole [] [] := ⟨.nil, .nil⟩

theorem InOrder.offset_le (h : InOrder whole parts offsets) : ∀ offset ∈ offsets, offset ≤ whole.length := by
  obtain ⟨hoccur, -⟩ := h
  induction hoccur with
  | nil => exact fun _ hin => by cases hin
  | cons hfirst hrest ih =>
    intro offset hin
    rcases List.mem_cons.1 hin with rfl | hin
    · have := hfirst.end_le
      omega
    · exact ih offset hin

/-- No part stands in an empty list. -/
theorem InOrder.none_in_nil (h : InOrder [] parts offsets) (hlong : ∀ part ∈ parts, part ≠ []) :
    parts = [] := by
  obtain ⟨hoccur, -⟩ := h
  cases hoccur with
  | nil => rfl
  | cons hfirst _ => exact absurd hfirst (not_occurs_in_nil (hlong _ List.mem_cons_self))

/-- One more part, after something that stands between. -/
theorem InOrder.concat (h : InOrder whole parts offsets) {between : List α} (hbetween : between ≠ [])
    (part : List α) : InOrder (whole ++ between ++ part) (parts ++ [part])
      (offsets ++ [(whole ++ between).length]) where
  occur := by
    refine List.rel_append (h.occur.imp fun part offset hoccurs => ?_) (.cons (occurs_at_end _ _) .nil)
    exact (hoccurs.append between).append _
  increasing := by
    refine List.pairwise_append.2 ⟨h.increasing, List.pairwise_singleton _ _, fun offset hin last hlast => ?_⟩
    have hle := h.offset_le offset hin
    have hlength := List.length_pos_of_ne_nil hbetween
    rw [List.mem_singleton.1 hlast, List.length_append]
    omega

theorem in_order_single (part : List α) : InOrder part [part] [0] :=
  ⟨.cons ⟨[], [], by simp, rfl⟩ .nil, List.pairwise_singleton _ _⟩

/-- Parts in order, seen from in front of the whole. -/
theorem InOrder.behind (h : InOrder whole parts offsets) (first : List α) :
    InOrder (first ++ whole) parts (offsets.map fun offset => first.length + offset) where
  occur := by
    rw [List.forall₂_map_right_iff]
    exact h.occur.imp fun part offset hoccurs => hoccurs.behind first
  increasing := by
    rw [List.pairwise_map]
    exact h.increasing.imp fun hlt => Nat.add_lt_add_left hlt _

theorem InOrder.trim {p : α → Bool} (h : InOrder whole parts offsets)
    (hsolid : ∀ part ∈ parts, Solid p part) :
    InOrder (trim p whole) parts (offsets.map fun offset => offset - lead p whole) := by
  obtain ⟨hoccur, hincreasing⟩ := h
  have htrimmed : List.Forall₂ (fun part offset => lead p whole ≤ offset ∧
      OccursAt part (occurrences.trim p whole) (offset - lead p whole)) parts offsets := by
    clear hincreasing
    induction hoccur with
    | nil => exact .nil
    | cons hfirst hrest ih =>
      refine .cons (hfirst.trim (hsolid _ List.mem_cons_self)) (ih fun part hin => ?_)
      exact hsolid part (List.mem_cons_of_mem _ hin)
  have hlead : ∀ offset ∈ offsets, lead p whole ≤ offset := by
    intro offset hin
    obtain ⟨n, hn, rfl⟩ := List.mem_iff_getElem.1 hin
    have hn' : n < parts.length := htrimmed.length_eq ▸ hn
    exact (htrimmed.get hn' hn).1
  constructor
  · rw [List.forall₂_map_right_iff]
    exact htrimmed.imp fun _ _ h => h.2
  · rw [List.pairwise_map]
    refine List.Pairwise.imp_of_mem (fun {a b} ha hb hlt => ?_) hincreasing
    have := hlead a ha
    omega

/-! ## Parts over several lists -/

/-- The place comes earlier: in an earlier list, or earlier in the same one. -/
def Before (a b : Nat × Nat) : Prop := a.1 < b.1 ∨ a.1 = b.1 ∧ a.2 < b.2

/-- Each part occurs in the list and at the offset of its place. -/
def PlacedAt (wholes : List (List α)) (part : List α) (place : Nat × Nat) : Prop :=
  ∃ whole, wholes[place.1]? = some whole ∧ OccursAt part whole place.2

/-- The parts have places in the lists, and the places go on and on. -/
structure Placed (wholes : List (List α)) (parts : List (List α)) (places : List (Nat × Nat)) :
    Prop where
  placed : List.Forall₂ (PlacedAt wholes) parts places
  increasing : places.Pairwise Before

variable {wholes : List (List α)} {parts' : List (List α)} {places : List (Nat × Nat)}

theorem placed_nil (wholes : List (List α)) : Placed wholes [] [] := ⟨.nil, .nil⟩

theorem PlacedAt.lt {place : Nat × Nat} (h : PlacedAt wholes part place) : place.1 < wholes.length := by
  obtain ⟨whole, hget, -⟩ := h
  exact (List.getElem?_eq_some_iff.1 hget).1

theorem Placed.placed_at (h : Placed wholes parts places) :
    ∀ place ∈ places, ∃ part ∈ parts, PlacedAt wholes part place := by
  obtain ⟨hplaced, -⟩ := h
  induction hplaced with
  | nil => exact fun _ hin => by cases hin
  | cons hfirst hrest ih =>
    intro place hin
    rcases List.mem_cons.1 hin with rfl | hin
    · exact ⟨_, List.mem_cons_self, hfirst⟩
    · obtain ⟨part, hpart, hplace⟩ := ih place hin
      exact ⟨part, List.mem_cons_of_mem _ hpart, hplace⟩

/-- Parts that come after all the others, at a list of their own places. -/
theorem Placed.with_last {last : List α} {n : Nat} (h : Placed wholes parts places)
    (hopen : InOrder last parts' offsets) (hget : wholes[n]? = some last)
    (hlast : ∀ place ∈ places, ∀ offset ∈ offsets, Before place (n, offset)) :
    Placed wholes (parts ++ parts') (places ++ offsets.map fun offset => (n, offset)) where
  placed := by
    refine List.rel_append h.placed ?_
    rw [List.forall₂_map_right_iff]
    exact hopen.occur.imp fun part offset hoccurs => ⟨last, hget, hoccurs⟩
  increasing := by
    refine List.pairwise_append.2 ⟨h.increasing, ?_, fun place hin place' hin' => ?_⟩
    · rw [List.pairwise_map]
      exact hopen.increasing.imp fun hlt => .inr ⟨rfl, hlt⟩
    · obtain ⟨offset, hoffset, rfl⟩ := List.mem_map.1 hin'
      exact hlast place hin offset hoffset

/-- A new list for parts that are in order. -/
theorem Placed.close (h : Placed wholes parts places) (hopen : InOrder whole parts' offsets) :
    Placed (wholes ++ [whole]) (parts ++ parts')
      (places ++ offsets.map fun offset => (wholes.length, offset)) := by
  refine Placed.with_last ⟨h.placed.imp fun part place hplace => ?_, h.increasing⟩ hopen
    List.getElem?_concat_length fun place hin offset _ => ?_
  · obtain ⟨found, hget, hoccurs⟩ := hplace
    exact ⟨found, by rw [List.getElem?_append_left (PlacedAt.lt ⟨found, hget, hoccurs⟩), hget], hoccurs⟩
  · obtain ⟨part, -, hplace⟩ := h.placed_at place hin
    exact .inl hplace.lt

/-- The last list gets longer by parts that are in order. -/
theorem Placed.extend {last : List α} (h : Placed (wholes ++ [last]) parts places)
    {between : List α} (hbetween : between ≠ []) (hopen : InOrder whole parts' offsets) :
    Placed (wholes ++ [last ++ between ++ whole]) (parts ++ parts') (places ++ offsets.map fun offset =>
      (wholes.length, (last ++ between).length + offset)) := by
  have hkept : Placed (wholes ++ [last ++ between ++ whole]) parts places := by
    refine ⟨h.placed.imp fun part place hplace => ?_, h.increasing⟩
    obtain ⟨found, hget, hoccurs⟩ := hplace
    rcases Nat.lt_or_ge place.1 wholes.length with hlt | hge
    · rw [List.getElem?_append_left hlt] at hget
      exact ⟨found, by rw [List.getElem?_append_left hlt, hget], hoccurs⟩
    · have heq : place.1 = wholes.length := by
        have := PlacedAt.lt ⟨found, hget, hoccurs⟩
        rw [List.length_append, List.length_singleton] at this
        omega
      rw [heq, List.getElem?_concat_length] at hget
      cases hget
      exact ⟨_, by rw [heq, List.getElem?_concat_length], (hoccurs.append between).append whole⟩
  have hall := hkept.with_last (hopen.behind (last ++ between)) (n := wholes.length)
    List.getElem?_concat_length fun place hin offset hoffset => ?_
  · rwa [List.map_map] at hall
  · obtain ⟨k, -, rfl⟩ := List.mem_map.1 hoffset
    obtain ⟨part, -, found, hget, hoccurs⟩ := h.placed_at place hin
    rcases Nat.lt_or_ge place.1 wholes.length with hlt | hge
    · exact .inl hlt
    · have heq : place.1 = wholes.length := by
        have := PlacedAt.lt ⟨found, hget, hoccurs⟩
        rw [List.length_append, List.length_singleton] at this
        omega
      rw [heq, List.getElem?_concat_length] at hget
      cases hget
      have hend := hoccurs.end_le
      have hlength := List.length_pos_of_ne_nil hbetween
      refine .inr ⟨heq, ?_⟩
      rw [List.length_append]
      dsimp only
      omega

theorem Placed.none_of_no_list (h : Placed [] parts places) : parts = [] := by
  obtain ⟨hplaced, -⟩ := h
  cases hplaced with
  | nil => rfl
  | cons hfirst _ =>
    have := hfirst.lt
    cases this

end occurrences
