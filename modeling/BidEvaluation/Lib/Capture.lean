-- Loops that capture each fitting element once, under its key. A loop counts
-- what it adds, and the keys that are there already are passed over.
import BidEvaluation.Lib.Stepwise

open stepwise

namespace capture

variable {σ ε α κ : Type}

/-- Any writes at all. -/
abbrev Ends (m : Prog σ ε α) (s : σ) (Q : Except ε α → σ → Prop) : Prop :=
  Meets (fun _ _ => True) m s Q

/-- One turn either adds the key of an element that fits and counts it, or
changes no key, and then an element that fits was there. -/
def Turn (Same : σ → Prop) (keys : σ → List κ) (key : α → κ) (fits : α → Prop)
    (step : Nat → α → Prog σ ε Nat) : Prop :=
  ∀ n a s, Same s → Ends (step n a) s fun r t => Same t ∧
    (r = .ok n ∧ keys t = keys s ∧ (fits a → key a ∈ keys s) ∨
      r = .ok (n + 1) ∧ keys t = keys s ++ [key a] ∧ fits a)

/-- What a loop over `l` has added in the end. -/
structure Adds (keys : σ → List κ) (key : α → κ) (fits : α → Prop) (l : List α) (s t : σ)
    (added : List κ) : Prop where
  appended : keys t = keys s ++ added
  fitting : ∀ k ∈ added, ∃ a ∈ l, fits a ∧ key a = k
  complete : ∀ a ∈ l, fits a → key a ∈ keys t

variable {Same : σ → Prop} {keys : σ → List κ} {key : α → κ} {fits : α → Prop}
  {step : Nat → α → Prog σ ε Nat} {l : List α} {s t u : σ} {added : List κ}

theorem Adds.passed {a : α} (hkeys : keys t = keys s) (hthere : fits a → key a ∈ keys s)
    (h : Adds keys key fits l t u added) : Adds keys key fits (a :: l) s u added := by
  have happended : keys u = keys s ++ added := by rw [h.appended, hkeys]
  refine ⟨happended, fun k hk => ?_, fun b hb hfits => ?_⟩
  · obtain ⟨b, hb, hfits⟩ := h.fitting k hk
    exact ⟨b, List.mem_cons_of_mem _ hb, hfits⟩
  · rcases List.mem_cons.1 hb with rfl | hb
    · rw [happended]
      exact List.mem_append_left _ (hthere hfits)
    · exact h.complete b hb hfits

theorem Adds.captured {a : α} (hkeys : keys t = keys s ++ [key a]) (hfits : fits a)
    (h : Adds keys key fits l t u added) : Adds keys key fits (a :: l) s u (key a :: added) := by
  have happended : keys u = keys s ++ key a :: added := by
    rw [h.appended, hkeys, List.append_assoc]
    rfl
  refine ⟨happended, fun k hk => ?_, fun b hb hfits' => ?_⟩
  · rcases List.mem_cons.1 hk with rfl | hk
    · exact ⟨a, List.mem_cons_self, hfits, rfl⟩
    · obtain ⟨b, hb, hfits'⟩ := h.fitting k hk
      exact ⟨b, List.mem_cons_of_mem _ hb, hfits'⟩
  · rcases List.mem_cons.1 hb with rfl | hb
    · rw [happended]
      exact List.mem_append_right _ List.mem_cons_self
    · exact h.complete b hb hfits'

/-- Only the keys of the two states count. -/
theorem Adds.between {s' t' : σ} (h : Adds keys key fits l s t added) (hs : keys s' = keys s)
    (ht : keys t' = keys t) : Adds keys key fits l s' t' added := by
  refine ⟨?_, h.fitting, fun a ha hfits => ?_⟩
  · rw [hs, ht]
    exact h.appended
  · rw [ht]
    exact h.complete a ha hfits

/-- The loop returns its count with what it added. -/
theorem loop_adds (hturn : Turn Same keys key fits step) (l : List α) (n : Nat) (hs : Same s) :
    Ends (l.foldlM step n) s fun r t => Same t ∧
      ∃ added, r = .ok (n + added.length) ∧ Adds keys key fits l s t added := by
  induction l generalizing n s with
  | nil =>
    rw [List.foldlM_nil]
    exact meets_pure.2 ⟨hs, [], rfl, by simp, by simp, by simp⟩
  | cons a rest ih =>
    rw [List.foldlM_cons]
    refine (hturn n a s hs).bind (fun m t ht => ?_) ?_
    · obtain ⟨hsame, ⟨hcount, hkeys, hthere⟩ | ⟨hcount, hkeys, hfits⟩⟩ := ht
      · cases hcount
        refine (ih n hsame).post fun r u hu => ?_
        obtain ⟨hsame', added, hr, hadds⟩ := hu
        exact ⟨hsame', added, hr, hadds.passed hkeys hthere⟩
      · cases hcount
        refine (ih (n + 1) hsame).post fun r u hu => ?_
        obtain ⟨hsame', added, hr, hadds⟩ := hu
        refine ⟨hsame', key a :: added, ?_, hadds.captured hkeys hfits⟩
        rw [hr, List.length_cons]
        congr 1
        omega
    · rintro e t ⟨-, ⟨⟨⟩, -⟩ | ⟨⟨⟩, -⟩⟩

end capture
