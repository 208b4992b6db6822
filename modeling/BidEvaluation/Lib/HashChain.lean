-- A log whose entries are chained by their hashes: each one names the hash
-- of the entry before it, and its own hash covers that name.
import Mathlib.Data.List.Induction
import Mathlib.Data.List.Forall2
import Mathlib.Data.List.Infix
import Mathlib.Data.List.Nodup

namespace hash_chain

/-- How an entry is read. The material is what its expected hash covers. -/
structure Reading (α μ η : Type) where
  link : α → η
  hash : α → η
  expected : α → η
  material : α → μ
  covered : ∀ {a b}, material a = material b → link a = link b

namespace Reading

variable {α μ η : Type} {R : Reading α μ η} {start : η} {l l' rows : List α} {a a' : α}

/-! ## Chains -/

/-- Each entry names the hash before it, and has its expected hash. -/
def Chained (R : Reading α μ η) : η → List α → Prop
  | _, [] => True
  | start, a :: rest =>
    R.link a = start ∧ R.hash a = R.expected a ∧ R.Chained (R.hash a) rest

/-- The hash that the next entry has to name. -/
def tip (R : Reading α μ η) (start : η) (l : List α) : η := (l.getLast?.map R.hash).getD start

@[simp] theorem tip_nil : R.tip start [] = start := rfl

@[simp] theorem tip_concat : R.tip start (l ++ [a]) = R.hash a := by
  simp [tip]

theorem tip_cons : R.tip start (a :: l) = R.tip (R.hash a) l := by
  unfold tip
  cases l with
  | nil => rfl
  | cons b rest => simp [List.getLast?_cons]

theorem chained_append :
    R.Chained start (l ++ l') ↔ R.Chained start l ∧ R.Chained (R.tip start l) l' := by
  induction l generalizing start with
  | nil => simp [Chained]
  | cons a rest ih =>
    show _ ∧ _ ∧ R.Chained (R.hash a) (rest ++ l') ↔ (_ ∧ _ ∧ R.Chained (R.hash a) rest) ∧ _
    rw [ih, tip_cons, and_assoc, and_assoc]

theorem chained_concat :
    R.Chained start (l ++ [a]) ↔
      R.Chained start l ∧ R.link a = R.tip start l ∧ R.hash a = R.expected a := by
  rw [chained_append]
  simp [Chained]

theorem Chained.left (h : R.Chained start (l ++ l')) : R.Chained start l := (chained_append.1 h).1

theorem Chained.initial (h : R.Chained start l) (hinit : l' <+: l) : R.Chained start l' := by
  obtain ⟨rest, rfl⟩ := hinit
  exact h.left

theorem Chained.hash_eq (h : R.Chained start l) (ha : a ∈ l) :
    R.hash a = R.expected a := by
  obtain ⟨first, rest, rfl⟩ := List.append_of_mem ha
  exact (chained_append.1 h).2.2.1

/-! ## Two chains -/

/-- The expected hashes tell these rows apart, and none is the start. -/
structure CollisionFree (R : Reading α μ η) (start : η) (rows : List α) : Prop where
  injective : ∀ a ∈ rows, ∀ b ∈ rows,
    R.expected a = R.expected b → R.material a = R.material b
  fresh : ∀ a ∈ rows, R.expected a ≠ start

theorem CollisionFree.mono (h : R.CollisionFree start rows) (hsub : l ⊆ rows) :
    R.CollisionFree start l where
  injective a ha b hb := h.injective a (hsub ha) b (hsub hb)
  fresh a ha := h.fresh a (hsub ha)

theorem CollisionFree.of_nodup (h : (rows.map R.expected).Nodup)
    (hfresh : ∀ a ∈ rows, R.expected a ≠ start) : R.CollisionFree start rows where
  injective _ ha _ hb hsame := congrArg R.material (List.inj_on_of_nodup_map h ha hb hsame)
  fresh := hfresh

/-- Two chains that end in the same hash are the same all the way. -/
theorem same_chain (hfree : R.CollisionFree start rows) (hl : l ++ [a] ⊆ rows)
    (hl' : l' ++ [a'] ⊆ rows) (h : R.Chained start (l ++ [a]))
    (h' : R.Chained start (l' ++ [a'])) (hsame : R.hash a = R.hash a') :
    (l ++ [a]).map R.material = (l' ++ [a']).map R.material := by
  induction l using List.reverseRecOn generalizing a a' l' with
  | nil =>
    obtain ⟨-, hlink, hhash⟩ := chained_concat.1 h
    obtain ⟨hchained', hlink', hhash'⟩ := chained_concat.1 h'
    have hmaterial : R.material a = R.material a' := by
      apply hfree.injective a (hl (by simp)) a' (hl' (by simp))
      rw [← hhash, ← hhash', hsame]
    rcases List.eq_nil_or_concat l' with rfl | ⟨before, b, rfl⟩
    · simp [hmaterial]
    · exfalso
      rw [List.concat_eq_append] at hlink' hchained' hl'
      apply hfree.fresh b (hl' (by simp))
      have htip : R.tip start (before ++ [b]) = R.hash b := tip_concat
      rw [← hchained'.hash_eq (by simp), ← htip, ← hlink',
        ← R.covered hmaterial, hlink, tip_nil]
  | append_singleton before b ih =>
    obtain ⟨hchained, hlink, hhash⟩ := chained_concat.1 h
    obtain ⟨hchained', hlink', hhash'⟩ := chained_concat.1 h'
    have hmaterial : R.material a = R.material a' := by
      apply hfree.injective a (hl (by simp)) a' (hl' (by simp))
      rw [← hhash, ← hhash', hsame]
    rcases List.eq_nil_or_concat l' with rfl | ⟨before', b', rfl⟩
    · exfalso
      apply hfree.fresh b (hl (by simp))
      have htip : R.tip start (before ++ [b]) = R.hash b := tip_concat
      rw [← hchained.hash_eq (by simp), ← htip, ← hlink,
        R.covered hmaterial, hlink', tip_nil]
    · rw [List.concat_eq_append] at hlink' hchained' hl' ⊢
      rw [tip_concat] at hlink hlink'
      have hbefore := ih (fun x hx => hl (List.mem_append_left _ hx))
        (fun x hx => hl' (List.mem_append_left _ hx)) hchained hchained'
        (by rw [← hlink, ← hlink', R.covered hmaterial])
      rw [List.map_append, hbefore, List.map_append]
      simp [hmaterial]

theorem same_tip (hfree : R.CollisionFree start (l ++ l')) (h : R.Chained start l)
    (h' : R.Chained start l') (hsame : R.tip start l = R.tip start l') :
    l.map R.material = l'.map R.material := by
  rcases List.eq_nil_or_concat l with rfl | ⟨before, a, rfl⟩
  · rcases List.eq_nil_or_concat l' with rfl | ⟨before', a', rfl⟩
    · rfl
    · rw [List.concat_eq_append] at *
      rw [tip_nil, tip_concat, h'.hash_eq (by simp)] at hsame
      exact absurd hsame.symm (hfree.fresh a' (by simp))
  · rcases List.eq_nil_or_concat l' with rfl | ⟨before', a', rfl⟩
    · rw [List.concat_eq_append] at *
      rw [tip_nil, tip_concat, h.hash_eq (by simp)] at hsame
      exact absurd hsame (hfree.fresh a (by simp))
    · rw [List.concat_eq_append] at *
      rw [List.concat_eq_append] at *
      rw [tip_concat, tip_concat] at hsame
      exact same_chain hfree (List.subset_append_left _ _) (List.subset_append_right _ _) h h' hsame

/-- Each hash but the last is named by the next entry. -/
theorem same_hashes {start' : η} (h : R.Chained start l) (h' : R.Chained start' l')
    (hlinks : l.map R.link = l'.map R.link) (hsame : R.tip start l = R.tip start' l') :
    start = start' ∧ l.map R.hash = l'.map R.hash := by
  induction l generalizing start start' l' with
  | nil =>
    cases l' with
    | nil => exact ⟨hsame, rfl⟩
    | cons a' rest' => simp at hlinks
  | cons a rest ih =>
    cases l' with
    | nil => simp at hlinks
    | cons a' rest' =>
      rw [tip_cons, tip_cons] at hsame
      rw [List.map_cons, List.map_cons, List.cons.injEq] at hlinks
      obtain ⟨hhash, hrest⟩ := ih h.2.2 h'.2.2 hlinks.2 hsame
      refine ⟨?_, ?_⟩
      · rw [← h.1, ← h'.1, hlinks.1]
      · rw [List.map_cons, List.map_cons, hhash, hrest]

/-- Two chains with one tip agree entry by entry. -/
theorem same_entries (hfree : R.CollisionFree start (l ++ l')) (h : R.Chained start l)
    (h' : R.Chained start l') (hsame : R.tip start l = R.tip start l') :
    List.Forall₂ (fun a b => R.material b = R.material a ∧ R.hash b = R.hash a) l l' := by
  have hmaterials := same_tip hfree h h' hsame
  have hlinks : l.map R.link = l'.map R.link := by
    have hforall := List.forall₂_map_left_iff.1
      (List.forall₂_map_right_iff.1 (List.forall₂_eq_eq_eq ▸ hmaterials :
        List.Forall₂ Eq (l.map R.material) (l'.map R.material)))
    have hforall' := hforall.imp fun a b hab => R.covered hab
    rw [← List.forall₂_eq_eq_eq]
    exact List.forall₂_map_left_iff.2 (List.forall₂_map_right_iff.2 hforall')
  have hhashes := (same_hashes h h' hlinks hsame).2
  clear hfree h h' hsame hlinks
  induction l generalizing l' with
  | nil =>
    cases l' with
    | nil => exact .nil
    | cons a' rest' => simp at hmaterials
  | cons a rest ih =>
    cases l' with
    | nil => simp at hmaterials
    | cons a' rest' =>
      rw [List.map_cons, List.map_cons, List.cons.injEq] at hmaterials hhashes
      exact .cons ⟨hmaterials.1.symm, hhashes.1.symm⟩ (ih hmaterials.2 hhashes.2)

/-- A chain of entries of another chain is its beginning. -/
theorem initial_of_entries (hfree : R.CollisionFree start l) (h : R.Chained start l)
    (h' : R.Chained start l') (hsub : l' ⊆ l) : l' <+: l := by
  induction l' using List.reverseRecOn with
  | nil => exact List.nil_prefix
  | append_singleton before a ih =>
    obtain ⟨first, rest, hl⟩ := List.append_of_mem (hsub (by simp : a ∈ before ++ [a]))
    have hsplit : l = (first ++ [a]) ++ rest := by simp [hl]
    have hchained : R.Chained start (first ++ [a]) := by
      rw [hsplit] at h
      exact h.left
    have hmap := same_chain hfree hsub (hsplit ▸ List.subset_append_left _ _) h' hchained rfl
    have hlength : before.length = first.length := by
      have := congrArg List.length hmap
      simpa using this
    have hbefore : before <+: l := ih h'.left fun x hx => hsub (List.mem_append_left _ hx)
    have hfirst : first <+: l := ⟨a :: rest, hl.symm⟩
    have heq : before = first := by
      rw [List.prefix_iff_eq_take.1 hbefore, List.prefix_iff_eq_take.1 hfirst, hlength]
    rw [heq]
    exact ⟨rest, hsplit.symm⟩

/-- A chain with the same last entry and all others of a chain is that chain. -/
theorem eq_of_inserted (hfree : R.CollisionFree start l') (h : R.Chained start l)
    (h' : R.Chained start l') (hsub : l.Sublist l') (hlast : l'.getLast? = l.getLast?) : l' = l := by
  rcases List.eq_nil_or_concat l with rfl | ⟨before, a, rfl⟩
  · simpa using hlast
  · rw [List.concat_eq_append] at *
    obtain ⟨before', hl'⟩ : ∃ before', l' = before' ++ [a] := by
      rw [List.getLast?_concat] at hlast
      exact ⟨_, (List.dropLast_append_getLast? a hlast).symm⟩
    subst hl'
    have hmap := same_chain hfree (List.Subset.refl _) hsub.subset h' h rfl
    have hlength := congrArg List.length hmap
    rw [List.length_map, List.length_map] at hlength
    exact (hsub.eq_of_length hlength.symm).symm

/-- An entry in the middle of a chain, or whose hash or expected hash stays, has no
other in its place. -/
theorem same_entry {first rest : List α}
    (hfree : R.CollisionFree start (first ++ a :: rest ++ [a']))
    (h : R.Chained start (first ++ a :: rest)) (h' : R.Chained start (first ++ a' :: rest))
    (hstays : rest ≠ [] ∨ R.hash a' = R.hash a ∨ R.expected a' = R.expected a) :
    R.material a' = R.material a ∧ R.hash a' = R.hash a := by
  obtain ⟨-, -, hhash, hrest⟩ := chained_append.1 h
  obtain ⟨-, -, hhash', hrest'⟩ := chained_append.1 h'
  have hsame : R.hash a' = R.hash a := by
    rcases hstays with hne | hstays | hstays
    · cases rest with
      | nil => exact absurd rfl hne
      | cons b tail => exact hrest'.1.symm.trans hrest.1
    · exact hstays
    · rw [hhash, hhash', hstays]
  refine ⟨?_, hsame⟩
  apply hfree.injective a' (by simp) a (by simp)
  rw [← hhash, ← hhash', hsame]

/-! ## A part of a chain -/

theorem filter_initial_iff (p : α → Bool) (l : List α) :
    l.filter p <+: l ↔ l.Pairwise (fun a b => p b = true → p a = true) := by
  induction l with
  | nil => simp
  | cons a rest ih =>
    rw [List.pairwise_cons]
    by_cases ha : p a = true
    · rw [List.filter_cons_of_pos ha, List.prefix_cons_inj, ih]
      simp [ha]
    · rw [List.filter_cons_of_neg ha]
      constructor
      · intro hinit
        have hnone : ∀ b ∈ rest, ¬ p b = true := by
          intro b hb hpb
          have hin : b ∈ rest.filter p := List.mem_filter.2 ⟨hb, hpb⟩
          obtain ⟨c, found, hfound⟩ := List.exists_cons_of_ne_nil (List.ne_nil_of_mem hin)
          rw [hfound, List.cons_prefix_cons] at hinit
          have hc : c ∈ rest.filter p := by simp [hfound]
          exact ha (hinit.1 ▸ (List.mem_filter.1 hc).2)
        refine ⟨fun b hb hpb => absurd hpb (hnone b hb), ?_⟩
        exact List.pairwise_of_forall_mem_list fun b _ c hc hpc => absurd hpc (hnone c hc)
      · rintro ⟨hfirst, -⟩
        have hnone : rest.filter p = [] :=
          List.filter_eq_nil_iff.2 fun b hb hpb => ha (hfirst b hb hpb)
        rw [hnone]
        exact List.nil_prefix

/-- The entries of one kind are a chain of their own exactly when they are
the first ones. -/
theorem chained_filter_iff (hfree : R.CollisionFree start l) (h : R.Chained start l)
    (p : α → Bool) :
    R.Chained start (l.filter p) ↔ l.Pairwise (fun a b => p b = true → p a = true) := by
  rw [← filter_initial_iff]
  constructor
  · intro hfilter
    exact initial_of_entries hfree h hfilter (List.filter_subset_self _)
  · intro hinit
    exact h.initial hinit

end Reading

end hash_chain
