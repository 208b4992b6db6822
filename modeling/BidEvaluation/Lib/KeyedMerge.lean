-- Hits merged into a list of candidates, by key. A hit takes the place of the
-- candidates of its key that are worse, and is appended when its key is new.
import Mathlib.Data.List.Induction
import Mathlib.Data.List.Nodup

namespace keyed_merge

variable {α κ : Type} [DecidableEq κ] (key : α → κ) (worse : α → α → Bool)

/-- One hit, into the list and the keys that were seen. -/
def merge (found : List α × List κ) (hit : α) : List α × List κ :=
  if key hit ∈ found.2 then
    (found.1.map fun c => if key c = key hit ∧ worse c hit then hit else c, found.2)
  else (found.1 ++ [hit], found.2 ++ [key hit])

def mergeAll (candidates hits : List α) : List α × List κ :=
  hits.foldl (merge key worse) (candidates, candidates.map key)

/-- The hit gets a place: no candidate has its key, or a worse one does. -/
def Joins (candidates : List α) (hit : α) : Prop :=
  (∀ c ∈ candidates, key c ≠ key hit) ∨ ∃ c ∈ candidates, key c = key hit ∧ worse c hit = true

/-- What the list has after some hits. -/
structure Merged (candidates hits : List α) (found : List α × List κ) : Prop where
  origin : ∀ a ∈ found.1, a ∈ candidates ∨ a ∈ hits ∧ Joins key worse candidates a
  joined : ∀ hit ∈ hits, Joins key worse candidates hit → hit ∈ found.1
  kept : ∀ c ∈ candidates, (∀ hit ∈ hits, key hit ≠ key c) → c ∈ found.1
  keys : ∀ k, k ∈ found.2 ↔ k ∈ candidates.map key ∨ k ∈ hits.map key

variable {key worse} {candidates hits : List α} {found : List α × List κ} {hit : α}

omit [DecidableEq κ] in
theorem merged_nil (candidates : List α) : Merged key worse candidates [] (candidates, candidates.map key) where
  origin a ha := .inl ha
  joined hit hin := by cases hin
  kept c hc _ := hc
  keys k := by simp

omit [DecidableEq κ] in
/-- A hit of a new key is appended. -/
theorem Merged.append (h : Merged key worse candidates hits found) (hnew : key hit ∉ found.2) :
    Merged key worse candidates (hits ++ [hit]) (found.1 ++ [hit], found.2 ++ [key hit]) := by
  have hjoins : Joins key worse candidates hit := by
    left
    intro c hc hkey
    apply hnew
    rw [h.keys, ← hkey]
    exact .inl (List.mem_map_of_mem hc)
  constructor
  · intro a ha
    rcases List.mem_append.1 ha with ha | ha
    · rcases h.origin a ha with hin | ⟨hin, hplace⟩
      · exact .inl hin
      · exact .inr ⟨List.mem_append_left _ hin, hplace⟩
    · rw [List.mem_singleton.1 ha]
      exact .inr ⟨List.mem_append_right _ (List.mem_singleton_self hit), hjoins⟩
  · intro a ha hplace
    rcases List.mem_append.1 ha with ha | ha
    · exact List.mem_append_left _ (h.joined a ha hplace)
    · exact List.mem_append_right _ ha
  · intro c hc hother
    exact List.mem_append_left _ (h.kept c hc fun a ha => hother a (List.mem_append_left _ ha))
  · intro k
    rw [List.mem_append, h.keys, List.map_append, List.mem_append, or_assoc]
    rfl

/-- A hit of a key that a candidate has takes the place of the worse ones. -/
theorem Merged.replace (h : Merged key worse candidates hits found) (hseen : key hit ∈ found.2)
    (hfresh : key hit ∉ hits.map key) :
    Merged key worse candidates (hits ++ [hit])
      (found.1.map fun c => if key c = key hit ∧ worse c hit then hit else c, found.2) := by
  have hother : ∀ a ∈ hits, key a ≠ key hit := fun a ha hkey =>
    hfresh (hkey ▸ List.mem_map_of_mem ha)
  constructor
  · intro a ha
    obtain ⟨c, hc, rfl⟩ := List.mem_map.1 ha
    by_cases hplace : key c = key hit ∧ worse c hit
    · rw [if_pos hplace]
      refine .inr ⟨List.mem_append_right _ (List.mem_singleton_self hit), .inr ⟨c, ?_, hplace⟩⟩
      -- The hits before it have other keys.
      rcases h.origin c hc with hin | ⟨hin, -⟩
      · exact hin
      · exact absurd hplace.1 (hother c hin)
    · rw [if_neg hplace]
      rcases h.origin c hc with hin | ⟨hin, hjoins⟩
      · exact .inl hin
      · exact .inr ⟨List.mem_append_left _ hin, hjoins⟩
  · intro a ha hjoins
    rw [List.mem_map]
    rcases List.mem_append.1 ha with ha | ha
    · exact ⟨a, h.joined a ha hjoins, if_neg fun hplace => hother a ha hplace.1⟩
    · rw [List.mem_singleton.1 ha] at hjoins ⊢
      rcases hjoins with hnone | ⟨c, hc, hplace⟩
      · exfalso
        rcases (h.keys _).1 hseen with hin | hin
        · obtain ⟨c, hc, hkey⟩ := List.mem_map.1 hin
          exact hnone c hc hkey
        · exact hfresh hin
      · have hkept := h.kept c hc fun a ha hkey => hother a ha (hkey.trans hplace.1)
        exact ⟨c, hkept, if_pos hplace⟩
  · intro c hc hnone
    have hne : key hit ≠ key c := hnone hit (List.mem_append_right _ (List.mem_singleton_self hit))
    have hkept := h.kept c hc fun a ha => hnone a (List.mem_append_left _ ha)
    exact List.mem_map.2 ⟨c, hkept, if_neg fun hplace => hne hplace.1.symm⟩
  · intro k
    rw [h.keys, List.map_append, List.mem_append]
    constructor
    · rintro (hin | hin)
      · exact .inl hin
      · exact .inr (.inl hin)
    · rintro (hin | hin | hin)
      · exact .inl hin
      · exact .inr hin
      · rw [List.mem_singleton.1 hin]
        exact (h.keys _).1 hseen

/-- Hits of different keys: each item of the merge is a candidate or a hit that
joins, and each hit that joins is there. -/
theorem merged_all (candidates : List α) (hkeys : (hits.map key).Nodup) :
    Merged key worse candidates hits (mergeAll key worse candidates hits) := by
  unfold mergeAll
  induction hits using List.reverseRecOn with
  | nil => exact merged_nil candidates
  | append_singleton hits hit ih =>
    rw [List.map_append, List.nodup_append] at hkeys
    obtain ⟨hkeys, -, hfresh⟩ := hkeys
    rw [List.foldl_concat]
    unfold merge
    split
    · rename_i hseen
      refine (ih hkeys).replace hseen fun hin => ?_
      exact hfresh _ hin _ (List.mem_singleton_self _) rfl
    · rename_i hnew
      exact (ih hkeys).append hnew

end keyed_merge
