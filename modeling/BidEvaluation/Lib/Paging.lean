-- Pages of a list by offset. The cursor of the next page is the text of its
-- offset, and a reader follows the cursors until a page has none.
import Mathlib.Data.List.Basic

namespace paging

variable {α β κ : Type}

structure Page (α κ : Type) where
  items : List α
  total : Nat
  next_cursor : Option κ

def Page.map (f : α → β) (page : Page α κ) : Page β κ :=
  ⟨page.items.map f, page.total, page.next_cursor⟩

/-- The pages from a cursor on, or none if the fuel ends before they do. -/
def follow (fetch : Option κ → Page α κ) : Nat → Option κ → Option (List (Page α κ))
  | 0, _ => none
  | fuel + 1, cursor =>
    match (fetch cursor).next_cursor with
    | none => some [fetch cursor]
    | some next => (follow fetch fuel (some next)).map fun pages => fetch cursor :: pages

/-- The page at a cursor is the window of the list at its offset. -/
structure ByOffset (l : List α) (size : Nat) (start_of : Option κ → Nat) (cursor_of : Nat → κ)
    (fetch : Option κ → Page α κ) : Prop where
  size_pos : 0 < size
  first : start_of none = 0
  parses : ∀ n, start_of (some (cursor_of n)) = n
  items : ∀ c, (fetch c).items = (l.drop (start_of c)).take size
  total : ∀ c, (fetch c).total = l.length
  next : ∀ c, (fetch c).next_cursor =
    if start_of c + size < l.length then some (cursor_of (start_of c + size)) else none

/-- The pages have the list, and each has its length. -/
structure Covers (l : List α) (start : Nat) (pages : List (Page α κ)) : Prop where
  items : pages.flatMap Page.items = l.drop start
  totals : ∀ page ∈ pages, page.total = l.length

variable {l : List α} {size : Nat} {start_of : Option κ → Nat} {cursor_of : Nat → κ}
  {fetch : Option κ → Page α κ}

theorem ByOffset.map (h : ByOffset l size start_of cursor_of fetch) (f : α → β) :
    ByOffset (l.map f) size start_of cursor_of fun c => (fetch c).map f := by
  refine ⟨h.size_pos, h.first, h.parses, fun c => ?_, fun c => ?_, fun c => ?_⟩
  · unfold Page.map
    rw [h.items, List.map_take, List.map_drop]
  · rw [List.length_map]
    exact h.total c
  · rw [List.length_map]
    exact h.next c

theorem ByOffset.last_page (h : ByOffset l size start_of cursor_of fetch) {c : Option κ}
    (hlast : l.length ≤ start_of c + size) : Covers l (start_of c) [fetch c] := by
  constructor
  · rw [List.flatMap_singleton, h.items]
    apply List.take_of_length_le
    rw [List.length_drop]
    omega
  · intro page hin
    rw [List.mem_singleton.1 hin]
    exact h.total c

theorem ByOffset.cons_page (h : ByOffset l size start_of cursor_of fetch) {c : Option κ}
    {pages : List (Page α κ)} (hrest : Covers l (start_of c + size) pages) :
    Covers l (start_of c) (fetch c :: pages) := by
  constructor
  · rw [List.flatMap_cons, h.items, hrest.items, ← List.drop_drop]
    exact List.take_append_drop size _
  · intro page hin
    rcases List.mem_cons.1 hin with rfl | hin
    · exact h.total c
    · exact hrest.totals page hin

/-- The same pages come with any fuel beyond what is left of the list. -/
theorem follow_from (h : ByOffset l size start_of cursor_of fetch) (c : Option κ) :
    ∃ pages, Covers l (start_of c) pages ∧
      ∀ fuel, l.length - start_of c < fuel → follow fetch fuel c = some pages := by
  -- By the offset, from the end of the list.
  induction hleft : l.length - start_of c using Nat.strongRecOn generalizing c with
  | ind left ih =>
    have hsize := h.size_pos
    by_cases hmore : start_of c + size < l.length
    · have hnext := h.next c
      rw [if_pos hmore] at hnext
      have hparse := h.parses (start_of c + size)
      obtain ⟨pages, hcovers, hfollow⟩ := ih (l.length - (start_of c + size)) (by omega)
        (some (cursor_of (start_of c + size))) (by rw [hparse])
      rw [hparse] at hcovers
      refine ⟨fetch c :: pages, h.cons_page hcovers, fun fuel hfuel => ?_⟩
      obtain ⟨fuel, rfl⟩ : ∃ n, fuel = n + 1 := ⟨fuel - 1, by omega⟩
      unfold follow
      rw [hnext]
      dsimp only
      rw [hfollow fuel (by omega)]
      rfl
    · have hnext := h.next c
      rw [if_neg hmore] at hnext
      refine ⟨[fetch c], h.last_page (by omega), fun fuel hfuel => ?_⟩
      obtain ⟨fuel, rfl⟩ : ∃ n, fuel = n + 1 := ⟨fuel - 1, by omega⟩
      unfold follow
      rw [hnext]

/-- All pages, from no cursor on, have the list. -/
theorem follow_all (h : ByOffset l size start_of cursor_of fetch) :
    ∃ pages, pages.flatMap Page.items = l ∧ (∀ page ∈ pages, page.total = l.length) ∧
      ∀ fuel, l.length < fuel → follow fetch fuel none = some pages := by
  obtain ⟨pages, hcovers, hfollow⟩ := follow_from h none
  rw [h.first] at hcovers hfollow
  exact ⟨pages, hcovers.items, hcovers.totals, hfollow⟩

end paging
