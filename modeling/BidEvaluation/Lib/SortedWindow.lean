-- A list that is sorted by a key, and its first elements. Where the keys
-- increase along a list, every sort by the key gives the list itself, and a
-- sort the other way gives its reverse.
import Mathlib.Data.List.Sort

namespace sorted_window

variable {α ι : Type} [LinearOrder ι] {key : α → ι} {l l' : List α} {p : α → Bool} {n : Nat}

/-- The keys get larger along the list. -/
def Increasing (key : α → ι) (l : List α) : Prop := l.Pairwise fun a b => key a < key b

theorem Increasing.filter (h : Increasing key l) (p : α → Bool) : Increasing key (l.filter p) :=
  List.Pairwise.filter p h

theorem increasing_concat {a : α} :
    Increasing key (l ++ [a]) ↔ Increasing key l ∧ ∀ b ∈ l, key b < key a := by
  simp [Increasing, List.pairwise_append]

/-- Two elements with one key are the same. -/
theorem Increasing.eq_of_key {a b : α} (h : Increasing key l) (ha : a ∈ l) (hb : b ∈ l)
    (hkey : key a = key b) : a = b := by
  induction l with
  | nil => simp at ha
  | cons c rest ih =>
    obtain ⟨hc, hrest⟩ := List.pairwise_cons.1 h
    rcases List.mem_cons.1 ha with hac | hin <;> rcases List.mem_cons.1 hb with hbc | hin'
    · rw [hac, hbc]
    · rw [hac] at hkey
      exact absurd hkey (hc b hin').ne
    · rw [hbc] at hkey
      exact absurd hkey (hc a hin).ne'
    · exact ih hrest hin hin'

/-- The last element has the largest key. -/
theorem Increasing.le_last {a last : α} (h : Increasing key l) (hlast : l.getLast? = some last)
    (ha : a ∈ l) : key a ≤ key last := by
  obtain ⟨rest, rfl⟩ := List.getLast?_eq_some_iff.1 hlast
  rcases List.mem_append.1 ha with hin | heq
  · exact ((increasing_concat.1 h).2 a hin).le
  · rw [List.mem_singleton.1 heq]

/-- Whether a list goes on increasing is seen at its last element. -/
theorem Increasing.concat_iff {a : α} (h : Increasing key l) :
    Increasing key (l ++ [a]) ↔ ∀ last, l.getLast? = some last → key last < key a := by
  rw [increasing_concat]
  constructor
  · intro hall last hlast
    exact hall.2 last (List.mem_of_getLast? hlast)
  · intro hlast
    refine ⟨h, fun b hb => ?_⟩
    rcases hl : l.getLast? with _ | last
    · rw [List.getLast?_eq_none_iff.1 hl] at hb
      simp at hb
    · exact lt_of_le_of_lt (h.le_last hl hb) (hlast last hl)

theorem le_foldl_max {a b : ι} {keys : List ι} (h : b ∈ a :: keys) : b ≤ keys.foldl max a := by
  induction keys generalizing a b with
  | nil => rw [List.mem_singleton.1 h, List.foldl_nil]
  | cons c rest ih =>
    rw [List.foldl_cons]
    rcases List.mem_cons.1 h with rfl | hin
    · exact (le_max_left b c).trans (ih List.mem_cons_self)
    · rcases List.mem_cons.1 hin with rfl | hrest
      · exact (le_max_right a b).trans (ih List.mem_cons_self)
      · exact ih (List.mem_cons_of_mem _ hrest)

/-- The maximum of the keys is the key of the last element. -/
theorem Increasing.foldl_max {a last : α} (h : Increasing key (a :: l))
    (hlast : (a :: l).getLast? = some last) : (l.map key).foldl max (key a) = key last := by
  induction l generalizing a with
  | nil =>
    rw [List.getLast?_singleton, Option.some.injEq] at hlast
    rw [List.map_nil, List.foldl_nil, hlast]
  | cons b rest ih =>
    obtain ⟨ha, hrest⟩ := List.pairwise_cons.1 h
    rw [List.getLast?_cons_cons] at hlast
    rw [List.map_cons, List.foldl_cons, max_eq_right (ha b List.mem_cons_self).le]
    exact ih hrest hlast

theorem Increasing.sorted_eq (h : Increasing key l) (hsorted : l'.Pairwise fun a b => key a ≤ key b)
    (hperm : l'.Perm l) : l' = l := by
  refine List.Perm.eq_of_pairwise ?_ hsorted (h.imp fun hlt => hlt.le) hperm
  intro a b ha hb hab hba
  exact h.eq_of_key (hperm.mem_iff.1 ha) hb (le_antisymm hab hba)

theorem sorted_by_key (l : List α) :
    (l.insertionSort fun a b => key a ≤ key b).Pairwise fun a b => key a ≤ key b := by
  have : Std.Total fun a b : α => key a ≤ key b := ⟨fun a b => le_total (key a) (key b)⟩
  have : IsTrans α fun a b => key a ≤ key b := ⟨fun _ _ _ => le_trans⟩
  exact List.pairwise_insertionSort _ l

theorem sorted_by_key_down (l : List α) :
    (l.insertionSort fun a b => key b ≤ key a).Pairwise fun a b => key b ≤ key a := by
  have : Std.Total fun a b : α => key b ≤ key a := ⟨fun a b => le_total (key b) (key a)⟩
  have : IsTrans α fun a b => key b ≤ key a := ⟨fun _ _ _ hab hbc => le_trans hbc hab⟩
  exact List.pairwise_insertionSort _ l

/-- A sort that is stable keeps the elements of one key in their order. -/
theorem same_key_sorted_down (l : List α) (k : ι) :
    (l.insertionSort fun a b => key b ≤ key a).filter (fun a => key a = k) =
      l.filter fun a => key a = k := by
  have hkeys : (l.filter fun a => key a = k).Pairwise fun a b => key b ≤ key a := by
    apply List.pairwise_of_forall_mem_list
    intro a ha b hb
    simp only [List.mem_filter, decide_eq_true_eq] at ha hb
    rw [ha.2, hb.2]
  have hsub := (List.sublist_insertionSort hkeys List.filter_sublist).filter fun a => key a = k
  rw [List.filter_filter] at hsub
  simp only [Bool.and_self] at hsub
  exact (hsub.eq_of_length ((List.perm_insertionSort _ l).filter _).length_eq.symm).symm

theorem Increasing.sort_eq (h : Increasing key l) :
    (l.insertionSort fun a b => key a ≤ key b) = l :=
  h.sorted_eq (sorted_by_key l) (List.perm_insertionSort _ l)

theorem Increasing.sort_down (h : Increasing key l) :
    (l.insertionSort fun a b => key b ≤ key a) = l.reverse := by
  have hup : (l.insertionSort fun a b => key b ≤ key a).reverse = l := by
    apply h.sorted_eq (List.pairwise_reverse.2 (sorted_by_key_down l))
    exact (List.reverse_perm _).trans (List.perm_insertionSort _ l)
  rw [← hup, List.reverse_reverse, hup]

/-- The elements of one kind, when their keys increase along the list, are in
the first `n` of the sorted list as they are in the list, unless one of them
falls behind. -/
theorem filter_window (hkeys : Increasing key (l.filter p))
    (hbehind : ∀ a ∈ (l.insertionSort fun a b => key a ≤ key b).drop n, p a = false) :
    ((l.insertionSort fun a b => key a ≤ key b).take n).filter p = l.filter p := by
  have hnone : ((l.insertionSort fun a b => key a ≤ key b).drop n).filter p = [] := by
    rw [List.filter_eq_nil_iff]
    intro a ha
    rw [hbehind a ha]
    exact Bool.false_ne_true
  calc ((l.insertionSort fun a b => key a ≤ key b).take n).filter p
      = (l.insertionSort fun a b => key a ≤ key b).filter p := by
        conv_rhs => rw [← List.take_append_drop n (l.insertionSort fun a b => key a ≤ key b)]
        rw [List.filter_append, hnone, List.append_nil]
    _ = l.filter p :=
        hkeys.sorted_eq ((sorted_by_key l).filter p) ((List.perm_insertionSort _ l).filter p)

end sorted_window
