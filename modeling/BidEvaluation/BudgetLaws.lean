-- The laws of the evidence budgets. The trim of one criterion keeps the best
-- items, one a document, within the budget or down to two. The trim of a
-- report goes on from there, lowest score first.
import BidEvaluation.Lib.Sweep
import BidEvaluation.TokenBudget
import Mathlib.Data.Finset.Image
import Mathlib.Data.List.Perm.Subperm

open dict_lib bid_evaluation.values bid_evaluation.token_budget

namespace bid_evaluation.budget_laws

variable {δ ρ : Type} {env : Budgets} {evidence ranked : List (EvidenceItem δ ρ)}

/-! ## The ranking -/

/-- The scores get no larger along the list. -/
def Falling (items : List (EvidenceItem δ ρ)) : Prop :=
  items.Pairwise fun a b => score_of b ≤ score_of a

/-- The first item of the input that no other outscores. -/
def top_scored (evidence : List (EvidenceItem δ ρ)) : Option (EvidenceItem δ ρ) :=
  evidence.find? fun x => evidence.all fun y => score_of y ≤ score_of x

theorem ranked_perm (evidence : List (EvidenceItem δ ρ)) :
    (ranked_by_score evidence).Perm evidence := List.perm_insertionSort _ _

theorem ranked_falling (evidence : List (EvidenceItem δ ρ)) : Falling (ranked_by_score evidence) := by
  have htotal : Std.Total fun a b : EvidenceItem δ ρ => score_of b ≤ score_of a :=
    ⟨fun a b => le_total _ _⟩
  have htrans : IsTrans (EvidenceItem δ ρ) fun a b => score_of b ≤ score_of a :=
    ⟨fun a b c hab hbc => hbc.trans hab⟩
  exact List.pairwise_insertionSort _ evidence

theorem Falling.head_is_top {first : EvidenceItem δ ρ} {items : List (EvidenceItem δ ρ)}
    (h : Falling items) (hfirst : items.head? = some first) :
    ∀ y ∈ items, score_of y ≤ score_of first := by
  obtain ⟨rest, rfl⟩ := List.head?_eq_some_iff.1 hfirst
  intro y hy
  rcases List.mem_cons.1 hy with rfl | hin
  · exact le_refl _
  · exact (List.pairwise_cons.1 h).1 y hin

/-- The sort puts the first of the best items first. -/
theorem ranked_head (evidence : List (EvidenceItem δ ρ)) :
    (ranked_by_score evidence).head? = top_scored evidence := by
  induction evidence with
  | nil => rfl
  | cons a rest ih =>
    have hsort : ranked_by_score (a :: rest) =
        (ranked_by_score rest).orderedInsert (fun a b => score_of b ≤ score_of a) a := rfl
    have hmem : ∀ y, y ∈ ranked_by_score rest ↔ y ∈ rest := fun y => (ranked_perm rest).mem_iff
    have hfalling := ranked_falling rest
    unfold top_scored at ih ⊢
    rw [hsort]
    rcases hranked : ranked_by_score rest with _ | ⟨b, others⟩
    · have hempty : rest = [] := by
        rw [← List.perm_nil, ← hranked]
        exact (ranked_perm rest).symm
      rw [hempty]
      simp
    · have htop : ∀ y ∈ rest, score_of y ≤ score_of b := by
        intro y hy
        refine hfalling.head_is_top (by rw [hranked]; rfl) y ((hmem y).2 hy)
      have hb : b ∈ rest := (hmem b).1 (by rw [hranked]; exact List.mem_cons_self)
      rw [hranked, List.head?_cons] at ih
      by_cases hle : score_of b ≤ score_of a
      · -- the first item is as good as any of the rest
        have hall : (a :: rest).all (fun y => decide (score_of y ≤ score_of a)) = true := by
          rw [List.all_cons, Bool.and_eq_true, List.all_eq_true]
          exact ⟨by simp, fun y hy => by simpa using (htop y hy).trans hle⟩
        rw [List.orderedInsert_cons, if_pos hle, List.head?_cons, List.find?_cons, hall]
      · have hnot : (a :: rest).all (fun y => decide (score_of y ≤ score_of a)) = false := by
          rw [List.all_eq_false]
          exact ⟨b, List.mem_cons_of_mem a hb, by simpa using hle⟩
        rw [List.orderedInsert_cons, if_neg hle, List.head?_cons, List.find?_cons, hnot, ih]
        rw [← List.head?_filter, ← List.head?_filter]
        refine congrArg List.head? (List.filter_congr fun x hx => ?_)
        rw [List.all_cons]
        -- an item that outscores the rest outscores the first one too
        rcases hx' : rest.all fun y => decide (score_of y ≤ score_of x) with _ | _
        · simp
        · have hbx : score_of b ≤ score_of x := by simpa using List.all_eq_true.1 hx' b hb
          simp [(lt_of_lt_of_le (not_le.1 hle) hbx).le]

/-! ## One item a document -/

/-- No two items of the list are of one document. -/
def OnePerDocument (items : List (EvidenceItem δ ρ)) : Prop :=
  items.Pairwise fun a b => ∀ doc, a.document_id = some doc → b.document_id ≠ some doc

/-- The loop has gone over the first items. -/
structure Deduped (done : List (EvidenceItem δ ρ)) (d : Dedup δ ρ) : Prop where
  perm : (d.kept ++ d.deferred).Perm done
  kept : d.kept.Sublist done
  deferred : d.deferred.Sublist done.tail
  seen : ∀ doc, doc ∈ d.seen_docs ↔ ∃ x ∈ d.kept, x.document_id = some doc
  one : OnePerDocument d.kept
  head : d.kept.head? = done.head?

theorem Deduped.keeps {done : List (EvidenceItem δ ρ)} {d : Dedup δ ρ} (h : Deduped done d)
    {item : EvidenceItem δ ρ} {seen_docs : List δ}
    (hnew : ∀ doc, item.document_id = some doc → doc ∉ d.seen_docs)
    (hseen : ∀ doc, doc ∈ seen_docs ↔ doc ∈ d.seen_docs ∨ item.document_id = some doc) :
    Deduped (done ++ [item]) { d with seen_docs := seen_docs, kept := d.kept ++ [item] } where
  perm := by
    have hmove : (d.kept ++ [item] ++ d.deferred).Perm (d.kept ++ d.deferred ++ [item]) := by
      rw [List.append_assoc, List.append_assoc]
      exact List.Perm.append_left _ List.perm_append_comm
    exact hmove.trans (h.perm.append_right _)
  kept := h.kept.append (List.Sublist.refl _)
  deferred := by
    cases done with
    | nil => rw [List.sublist_nil.1 h.deferred]; exact List.nil_sublist _
    | cons a rest => exact h.deferred.trans (List.sublist_append_left _ _)
  seen doc := by
    rw [hseen, h.seen]
    constructor
    · rintro (⟨x, hx, hdoc⟩ | hdoc)
      · exact ⟨x, List.mem_append_left _ hx, hdoc⟩
      · exact ⟨item, List.mem_append_right _ (List.mem_singleton_self _), hdoc⟩
    · rintro ⟨x, hx, hdoc⟩
      rcases List.mem_append.1 hx with hin | heq
      · exact .inl ⟨x, hin, hdoc⟩
      · exact .inr (List.mem_singleton.1 heq ▸ hdoc)
  one := by
    refine List.pairwise_append.2 ⟨h.one, List.pairwise_singleton _ _, fun a ha b hb doc hdoc hsame => ?_⟩
    rw [List.mem_singleton.1 hb] at hsame
    exact hnew doc hsame ((h.seen doc).2 ⟨a, ha, hdoc⟩)
  head := by rw [List.head?_append, List.head?_append, h.head]

theorem deduped_start : Deduped ([] : List (EvidenceItem δ ρ)) ⟨[], [], []⟩ :=
  ⟨List.Perm.refl _, List.Sublist.refl _, List.Sublist.refl _, fun _ => by simp, List.Pairwise.nil, rfl⟩

section dedup

variable [DecidableEq δ]

theorem deduped_step {done : List (EvidenceItem δ ρ)} {d : Dedup δ ρ} (h : Deduped done d)
    (item : EvidenceItem δ ρ) : Deduped (done ++ [item]) (dedup_step d item) := by
  unfold dedup_step
  split
  · rename_i hnone
    exact h.keeps (by simp [hnone]) (by simp [hnone])
  · rename_i doc_id hdoc
    split
    · rename_i hnew
      refine h.keeps ?_ ?_
      · intro doc hsame
        rw [hdoc] at hsame
        cases hsame
        exact hnew
      · intro doc
        rw [List.mem_append, List.mem_singleton, hdoc, Option.some.injEq, eq_comm]
    · -- the document was seen, so the loop is past its first item
      rename_i hold
      have hne : done ≠ [] := by
        rintro rfl
        obtain ⟨x, hx, -⟩ := (h.seen doc_id).1 (not_not.1 hold)
        rw [List.sublist_nil.1 h.kept] at hx
        cases hx
      refine ⟨?_, h.kept.trans (List.sublist_append_left _ _), ?_, h.seen, h.one, ?_⟩
      · dsimp only
        rw [← List.append_assoc]
        exact h.perm.append_right _
      · rw [List.tail_append_of_ne_nil hne]
        exact h.deferred.append (List.Sublist.refl _)
      · rw [List.head?_append_of_ne_nil _ hne]
        exact h.head

theorem deduped (ranked : List (EvidenceItem δ ρ)) :
    Deduped ranked (ranked.foldl dedup_step ⟨[], [], []⟩) := by
  induction ranked using List.reverseRecOn with
  | nil => exact deduped_start
  | append_singleton done item ih =>
    rw [List.foldl_concat]
    exact deduped_step ih item

/-- What stays of the ranked items. -/
structure Kept (ranked kept : List (EvidenceItem δ ρ)) : Prop where
  subperm : kept.Subperm ranked
  falling : Falling kept
  one : OnePerDocument kept ∨ kept.length ≤ MIN_EVIDENCE_PER_CRITERIA
  at_least : min MIN_EVIDENCE_PER_CRITERIA ranked.length ≤ kept.length
  head : kept.head? = ranked.head?

theorem dedup_by_document_keeps (h : Falling ranked) : Kept ranked (dedup_by_document ranked) := by
  have hd := deduped ranked
  unfold dedup_by_document
  generalize ranked.foldl dedup_step ⟨[], [], []⟩ = d at hd ⊢
  have hlength : d.kept.length + d.deferred.length = ranked.length := by
    rw [← List.length_append]
    exact hd.perm.length_eq
  dsimp only
  by_cases hfew : d.kept.length < MIN_EVIDENCE_PER_CRITERIA
  · rw [if_pos hfew]
    have hrefill : (d.deferred.take (MIN_EVIDENCE_PER_CRITERIA - d.kept.length)).Sublist d.deferred :=
      List.take_sublist _ _
    have hsize : (d.deferred.take (MIN_EVIDENCE_PER_CRITERIA - d.kept.length)).length =
        min (MIN_EVIDENCE_PER_CRITERIA - d.kept.length) d.deferred.length := List.length_take
    refine ⟨?_, ?_, .inr ?_, ?_, ?_⟩
    · exact ((List.Sublist.refl _).append hrefill).subperm.trans hd.perm.subperm
    · -- at most the first of the ranked items stands before the refill
      refine List.pairwise_append.2 ⟨h.sublist hd.kept,
        h.sublist (hrefill.trans (hd.deferred.trans (List.tail_sublist _))), fun a ha b hb => ?_⟩
      have hfirst : d.kept.head? = some a := by
        unfold MIN_EVIDENCE_PER_CRITERIA at hfew
        rcases hkept : d.kept with _ | ⟨c, _ | ⟨c', rest⟩⟩
        · rw [hkept] at ha
          cases ha
        · rw [hkept] at ha
          rw [List.mem_singleton.1 ha]
          rfl
        · rw [hkept, List.length_cons, List.length_cons] at hfew
          omega
      rw [hd.head] at hfirst
      exact h.head_is_top hfirst b
        ((hrefill.trans (hd.deferred.trans (List.tail_sublist _))).subset hb)
    · rw [List.length_append, hsize]
      omega
    · rw [List.length_append, hsize]
      omega
    · rw [List.head?_append, hd.head]
      rcases hranked : ranked.head? with _ | first
      · have hempty : ranked = [] := List.head?_eq_none_iff.1 hranked
        rw [hempty] at hd
        rw [List.sublist_nil.1 hd.deferred, List.take_nil]
        rfl
      · rfl
  · rw [if_neg hfew]
    exact ⟨hd.kept.subperm, h.sublist hd.kept, .inl hd.one, by omega, hd.head⟩

end dedup

/-! ## The cut -/

/-- The cut takes items from the front as long as they fit, and two anyway. -/
theorem cut_takes (budget : Int) (rest result : List (EvidenceItem δ ρ)) {total : Nat}
    (htotal : total = tokens_in env result)
    (hfits : (total : Int) ≤ budget ∨ result.length ≤ MIN_EVIDENCE_PER_CRITERIA) :
    ∃ taken, taken <+: rest ∧ cut env budget rest result total = result ++ taken ∧
      min MIN_EVIDENCE_PER_CRITERIA (result ++ rest).length ≤ (result ++ taken).length ∧
        ((tokens_in env (result ++ taken) : Int) ≤ budget ∨
          (result ++ taken).length ≤ MIN_EVIDENCE_PER_CRITERIA) := by
  induction rest generalizing result total with
  | nil =>
    refine ⟨[], List.prefix_refl _, by rw [List.append_nil]; rfl, Nat.min_le_right _ _, ?_⟩
    rw [List.append_nil, ← htotal]
    exact hfits
  | cons item rest ih =>
    unfold cut
    dsimp only
    split
    · rename_i hover
      refine ⟨[], List.nil_prefix, by rw [List.append_nil], ?_, ?_⟩
      · rw [List.append_nil]
        omega
      · rw [List.append_nil, ← htotal]
        exact hfits
    · rename_i hunder
      have hnext : total + tokens_of env item = tokens_in env (result ++ [item]) := by
        rw [htotal, tokens_in, tokens_in, List.map_append, List.sum_append, List.map_singleton,
          List.sum_singleton]
      have hstill : ((total + tokens_of env item : Nat) : Int) ≤ budget ∨
          (result ++ [item]).length ≤ MIN_EVIDENCE_PER_CRITERIA := by
        rw [List.length_append, List.length_singleton]
        by_cases hbudget : budget < ((total + tokens_of env item : Nat) : Int)
        · exact .inr (by omega)
        · exact .inl (by omega)
      obtain ⟨taken, htaken, hcut, hleast, hend⟩ := ih (result ++ [item]) hnext hstill
      rw [List.append_assoc] at hcut hleast hend
      rw [List.append_assoc] at hleast
      exact ⟨item :: taken, List.cons_prefix_cons.2 ⟨rfl, htaken⟩, hcut, hleast, hend⟩

theorem cut_keeps (env : Budgets) (budget : Int) (items : List (EvidenceItem δ ρ)) :
    cut env budget items [] 0 <+: items ∧
      min MIN_EVIDENCE_PER_CRITERIA items.length ≤ (cut env budget items [] 0).length ∧
        ((tokens_in env (cut env budget items [] 0) : Int) ≤ budget ∨
          (cut env budget items [] 0).length ≤ MIN_EVIDENCE_PER_CRITERIA) := by
  have hstart : 0 = tokens_in env ([] : List (EvidenceItem δ ρ)) := rfl
  obtain ⟨taken, htaken, hcut, hleast, hend⟩ := cut_takes budget items [] hstart (.inr (Nat.zero_le _))
  rw [List.nil_append] at hcut hleast hend
  rw [List.nil_append] at hleast
  rw [hcut]
  exact ⟨htaken, hleast, hend⟩

/-! ## One criterion -/

/-- What a trim within a budget gives. -/
structure Trimmed (env : Budgets) (budget : Int) (evidence result : List (EvidenceItem δ ρ)) :
    Prop where
  from_input : result.Subperm evidence
  falling : Falling result
  at_most : result.length ≤ MAX_EVIDENCE_PER_CRITERIA
  at_least : min MIN_EVIDENCE_PER_CRITERIA evidence.length ≤ result.length
  fits : (tokens_in env result : Int) ≤ budget ∨ result.length ≤ MIN_EVIDENCE_PER_CRITERIA
  one_per_document : OnePerDocument result ∨ result.length ≤ MIN_EVIDENCE_PER_CRITERIA
  keeps_top : result.head? = top_scored evidence

/-- The trim of one criterion, for every evidence and every budget. -/
theorem trim_is_correct [DecidableEq δ] (env : Budgets) (evidence : List (EvidenceItem δ ρ)) (max_tokens : Int) :
    Trimmed env (budget_or max_tokens env.single_criteria_budget) evidence
      (trim_evidence_to_budget env evidence max_tokens) := by
  unfold trim_evidence_to_budget
  dsimp only
  by_cases hempty : evidence = []
  · rw [if_pos hempty, hempty]
    exact ⟨List.Subperm.refl _, List.Pairwise.nil, Nat.zero_le _, Nat.min_le_right _ _,
      .inr (Nat.zero_le _), .inl List.Pairwise.nil, rfl⟩
  rw [if_neg hempty]
  have hperm := ranked_perm evidence
  have hbest : ((ranked_by_score evidence).take MAX_EVIDENCE_PER_CRITERIA).Sublist
      (ranked_by_score evidence) := List.take_sublist _ _
  have hkept := dedup_by_document_keeps ((ranked_falling evidence).sublist hbest)
  have hsize : ((ranked_by_score evidence).take MAX_EVIDENCE_PER_CRITERIA).length =
      min MAX_EVIDENCE_PER_CRITERIA evidence.length := by
    rw [List.length_take, hperm.length_eq]
  have hfirst : ((ranked_by_score evidence).take MAX_EVIDENCE_PER_CRITERIA).head? =
      top_scored evidence := by
    rw [← ranked_head, List.head?_take, if_neg (by decide)]
  generalize (ranked_by_score evidence).take MAX_EVIDENCE_PER_CRITERIA = ranked
    at hbest hkept hsize hfirst ⊢
  obtain ⟨htaken, hleast, hend⟩ :=
    cut_keeps env (budget_or max_tokens env.single_criteria_budget) (dedup_by_document ranked)
  generalize cut env _ (dedup_by_document ranked) [] 0 = taken at htaken hleast hend ⊢
  have hpart := htaken.sublist
  have hlength := hkept.subperm.length_le
  have hleast' := hkept.at_least
  unfold MAX_EVIDENCE_PER_CRITERIA at hsize
  unfold MIN_EVIDENCE_PER_CRITERIA at *
  refine ⟨?_, hkept.falling.sublist hpart, ?_, ?_, hend, ?_, ?_⟩
  · exact hpart.subperm.trans (hkept.subperm.trans (hbest.subperm.trans hperm.subperm))
  · have hfewer := hpart.length_le
    unfold MAX_EVIDENCE_PER_CRITERIA
    omega
  · unfold MIN_EVIDENCE_PER_CRITERIA
    omega
  · rcases hkept.one with hone | hfew
    · exact .inl (hone.sublist hpart)
    · exact .inr (hpart.length_le.trans hfew)
  · -- the cut does not drop the first item
    have hsome : evidence.length ≠ 0 := fun hzero => hempty (List.length_eq_zero_iff.1 hzero)
    rw [← hfirst, ← hkept.head]
    obtain ⟨dropped, hdropped⟩ := htaken
    rw [← hdropped, List.head?_append_of_ne_nil]
    rintro rfl
    rw [List.length_nil] at hleast
    omega

/-! ## The items of a report -/

section refs

variable {trimmed : CriteriaEvidence δ ρ} {removed : Finset (String × Nat)}

def place (ref : ScoredRef δ ρ) : String × Nat := (ref.cid, ref.idx)

/-- The references of one criterion. -/
def refs_of (cid : String) (ev_list : List (EvidenceItem δ ρ)) : List (ScoredRef δ ρ) :=
  ev_list.zipIdx.map fun (item, idx) => ⟨cid, idx, item⟩

theorem mem_refs_of {cid : String} {ev_list : List (EvidenceItem δ ρ)} {ref : ScoredRef δ ρ} :
    ref ∈ refs_of cid ev_list ↔ ref.cid = cid ∧ ev_list[ref.idx]? = some ref.item := by
  unfold refs_of
  rw [List.mem_map]
  constructor
  · rintro ⟨⟨item, idx⟩, hin, rfl⟩
    exact ⟨rfl, (List.mem_zipIdx_iff_getElem?).1 hin⟩
  · rintro ⟨rfl, hitem⟩
    exact ⟨(ref.item, ref.idx), List.mem_zipIdx_iff_getElem?.2 hitem, rfl⟩

theorem mem_scored_refs {ref : ScoredRef δ ρ} :
    ref ∈ scored_refs trimmed ↔ ∃ ev_list, trimmed.get? ref.cid = some ev_list ∧
      ev_list[ref.idx]? = some ref.item := by
  unfold scored_refs
  rw [List.mem_flatMap]
  constructor
  · rintro ⟨⟨cid, ev_list⟩, hentry, hin⟩
    obtain ⟨rfl, hitem⟩ := mem_refs_of.1 hin
    exact ⟨ev_list, (trimmed.mem_entries_iff _ _).1 hentry, hitem⟩
  · rintro ⟨ev_list, hget, hitem⟩
    exact ⟨(ref.cid, ev_list), (trimmed.mem_entries_iff _ _).2 hget, mem_refs_of.2 ⟨rfl, hitem⟩⟩

theorem place_injective {a b : ScoredRef δ ρ} (ha : a ∈ scored_refs trimmed)
    (hb : b ∈ scored_refs trimmed) (h : place a = place b) : a = b := by
  obtain ⟨ev_list, hget, hitem⟩ := mem_scored_refs.1 ha
  obtain ⟨ev_list', hget', hitem'⟩ := mem_scored_refs.1 hb
  cases a
  cases b
  obtain ⟨rfl, rfl⟩ := Prod.mk.inj h
  cases hget.symm.trans hget'
  cases hitem.symm.trans hitem'
  rfl

theorem refs_of_nodup (cid : String) (ev_list : List (EvidenceItem δ ρ)) :
    (refs_of cid ev_list).Nodup := by
  refine List.Nodup.of_map (fun ref => ref.idx) ?_
  unfold refs_of
  rw [List.map_map]
  show (ev_list.zipIdx.map Prod.snd).Nodup
  rw [List.zipIdx_map_snd]
  exact List.nodup_range'

theorem scored_refs_nodup : (scored_refs trimmed).Nodup := by
  unfold scored_refs
  refine List.nodup_flatMap.2 ⟨fun entry _ => refs_of_nodup entry.1 entry.2, ?_⟩
  refine (List.pairwise_map.1 trimmed.keys_nodup).imp fun {a b} hne ref ha hb => ?_
  exact hne ((mem_refs_of.1 ha).1.symm.trans (mem_refs_of.1 hb).1)

/-- The kept items are those of the references that were not removed. -/
theorem kept_items_eq (cid : String) (ev_list : List (EvidenceItem δ ρ)) :
    kept_items removed cid ev_list =
      ((refs_of cid ev_list).filter fun ref => place ref ∉ removed).map fun ref => ref.item := by
  unfold kept_items refs_of
  rw [List.filter_map, List.map_map]
  rfl

theorem kept_items_sublist (cid : String) (ev_list : List (EvidenceItem δ ρ)) :
    (kept_items removed cid ev_list).Sublist ev_list := by
  have hpart := (List.filter_sublist (p := fun x : EvidenceItem δ ρ × Nat => (cid, x.2) ∉ removed)
    (l := ev_list.zipIdx)).map Prod.fst
  rw [List.zipIdx_map_fst] at hpart
  exact hpart

theorem mem_kept_items {cid : String} {ev_list : List (EvidenceItem δ ρ)}
    (hget : trimmed.get? cid = some ev_list) {item : EvidenceItem δ ρ} :
    item ∈ kept_items removed cid ev_list ↔
      ∃ ref ∈ scored_refs trimmed, ref.cid = cid ∧ ref.item = item ∧ place ref ∉ removed := by
  rw [kept_items_eq, List.mem_map]
  constructor
  · rintro ⟨ref, hin, rfl⟩
    obtain ⟨href, hnot⟩ := List.mem_filter.1 hin
    obtain ⟨hcid, hitem⟩ := mem_refs_of.1 href
    exact ⟨ref, mem_scored_refs.2 ⟨ev_list, hcid ▸ hget, hitem⟩, hcid, rfl, by simpa using hnot⟩
  · rintro ⟨ref, href, rfl, rfl, hnot⟩
    obtain ⟨ev_list', hget', hitem⟩ := mem_scored_refs.1 href
    cases hget.symm.trans hget'
    exact ⟨ref, List.mem_filter.2 ⟨mem_refs_of.2 ⟨rfl, hitem⟩, by simpa using hnot⟩, rfl⟩

theorem get?_map_lists (f : String → List (EvidenceItem δ ρ) → List (EvidenceItem δ ρ))
    (d : CriteriaEvidence δ ρ) (cid : String) :
    (map_lists f d).get? cid = (d.get? cid).map (f cid) := by
  obtain ⟨entries, hnodup⟩ := d
  unfold map_lists Dict.get?
  dsimp only
  clear hnodup
  induction entries with
  | nil => rfl
  | cons entry rest ih =>
    obtain ⟨key, ev_list⟩ := entry
    rw [List.map_cons, lookupEntry, lookupEntry]
    split
    · rename_i hkey
      rw [hkey]
      rfl
    · exact ih

theorem keys_map_lists (f : String → List (EvidenceItem δ ρ) → List (EvidenceItem δ ρ))
    (d : CriteriaEvidence δ ρ) : (map_lists f d).keys = d.keys := by
  unfold map_lists Dict.keys
  rw [List.map_map]
  rfl

theorem remaining_get? {trimmed : CriteriaEvidence δ ρ} {cid : String} {items : List (EvidenceItem δ ρ)}
    (h : (map_lists (kept_items removed) trimmed).get? cid = some items) :
    remaining trimmed removed cid = items.length := by
  rw [get?_map_lists] at h
  obtain ⟨ev_list, hget, rfl⟩ := Option.map_eq_some_iff.1 h
  unfold remaining
  rw [hget]
  rfl

/-- The tokens of the lists that are left. -/
theorem total_tokens_kept (env : Budgets) : total_tokens env (map_lists (kept_items removed) trimmed) =
    (((scored_refs trimmed).filter fun ref => place ref ∉ removed).map
      fun ref => tokens_of env ref.item).sum := by
  have hlists : (map_lists (kept_items removed) trimmed).entries.flatMap Prod.snd =
      ((scored_refs trimmed).filter fun ref => place ref ∉ removed).map fun ref => ref.item := by
    unfold scored_refs
    rw [List.filter_flatMap, List.map_flatMap]
    show (trimmed.entries.map fun entry => (entry.1, kept_items removed entry.1 entry.2)).flatMap
      Prod.snd = _
    rw [List.flatMap_map]
    exact List.flatMap_congr fun entry _ => kept_items_eq entry.1 entry.2
  unfold total_tokens
  rw [hlists, List.map_map]
  rfl

end refs

/-! ## The removal -/

section removal

variable {trimmed : CriteriaEvidence δ ρ} {budget : Int}

open Classical in
theorem place_mem_image {removed : Finset (ScoredRef δ ρ)} {ref : ScoredRef δ ρ}
    (hremoved : ∀ r ∈ removed, r ∈ scored_refs trimmed) (href : ref ∈ scored_refs trimmed) :
    place ref ∈ removed.image place ↔ ref ∈ removed := by
  rw [Finset.mem_image]
  constructor
  · rintro ⟨other, hin, hplace⟩
    exact place_injective (hremoved other hin) href hplace ▸ hin
  · exact fun hin => ⟨ref, hin, rfl⟩

open Classical in
theorem left_eq {removed : Finset (ScoredRef δ ρ)} (hremoved : ∀ r ∈ removed, r ∈ scored_refs trimmed) :
    sweep.left (scored_refs trimmed) removed =
      (scored_refs trimmed).filter fun ref => place ref ∉ removed.image place := by
  refine List.filter_congr fun ref href => ?_
  exact decide_eq_decide.2 (not_congr (place_mem_image hremoved href).symm)

open Classical in
/-- What a criterion has left, as the pass counts it. -/
theorem remaining_eq {removed : Finset (ScoredRef δ ρ)}
    (hremoved : ∀ r ∈ removed, r ∈ scored_refs trimmed) (cid : String) :
    sweep.remaining (fun ref => ref.cid) (scored_refs trimmed) removed cid =
      remaining trimmed (removed.image place) cid := by
  have hgroup : (scored_refs trimmed).filter (fun ref => ref.cid = cid) =
      refs_of cid ((trimmed.get? cid).getD []) := by
    obtain ⟨entries, hnodup⟩ := trimmed
    unfold scored_refs Dict.get?
    clear hremoved
    dsimp only
    induction entries with
    | nil => rfl
    | cons entry rest ih =>
      obtain ⟨key, ev_list⟩ := entry
      obtain ⟨hnew, hrest⟩ := List.nodup_cons.1 hnodup
      have hfirst : ∀ ref ∈ refs_of key ev_list, ref.cid = key := fun ref href => (mem_refs_of.1 href).1
      rw [List.flatMap_cons, List.filter_append, lookupEntry]
      by_cases hkey : key = cid
      · -- no later entry has the key
        have hnone : lookupEntry rest cid = none := by
          by_contra hsome
          obtain ⟨other, hother⟩ := Option.ne_none_iff_exists'.1 hsome
          exact hnew (List.mem_map.2 ⟨(cid, other), mem_of_lookupEntry hother, hkey.symm⟩)
        have hall : (refs_of key ev_list).filter (fun ref => ref.cid = cid) = refs_of key ev_list :=
          List.filter_eq_self.2 fun ref href => by simpa [hkey] using hfirst ref href
        have hlater := ih hrest
        rw [hnone] at hlater
        rw [if_pos hkey, hlater]
        show List.filter _ (refs_of key ev_list) ++ [] = _
        rw [hall, List.append_nil, hkey]
        rfl
      · have hnot : (refs_of key ev_list).filter (fun ref => ref.cid = cid) = [] :=
          List.filter_eq_nil_iff.2 fun ref href => by simpa [hfirst ref href] using hkey
        rw [if_neg hkey, ih hrest]
        show List.filter _ (refs_of key ev_list) ++ _ = _
        rw [hnot, List.nil_append]
  unfold sweep.remaining remaining
  rw [left_eq hremoved, kept_items_eq, List.length_map, ← hgroup, List.filter_filter,
    List.countP_eq_length_filter, List.filter_filter]
  refine congrArg List.length (List.filter_congr fun ref _ => ?_)
  rw [Bool.and_comm]

open Classical in
/-- The loop is the pass of a sweep over the references. -/
theorem removal_loop_eq (env : Budgets) (trimmed : CriteriaEvidence δ ρ) (budget : Int)
    (rest : List (ScoredRef δ ρ)) (p : sweep.Pass (ScoredRef δ ρ))
    (hremoved : ∀ r ∈ p.removed, r ∈ scored_refs trimmed)
    (hrest : ∀ r ∈ rest, r ∈ scored_refs trimmed) :
    let swept := sweep.pass (fun ref => ref.cid) (fun ref => (tokens_of env ref.item : Int))
      (scored_refs trimmed) budget MIN_EVIDENCE_PER_CRITERIA rest p
    removal_loop env trimmed budget rest ⟨p.removed.image place, p.total⟩ =
      ⟨swept.removed.image place, swept.total⟩ ∧ ∀ r ∈ swept.removed, r ∈ scored_refs trimmed := by
  induction rest generalizing p with
  | nil => exact ⟨rfl, hremoved⟩
  | cons ref rest ih =>
    have hlater : ∀ r ∈ rest, r ∈ scored_refs trimmed := fun r hr => hrest r (List.mem_cons_of_mem ref hr)
    unfold removal_loop sweep.pass
    dsimp only
    rw [remaining_eq hremoved]
    split
    · exact ⟨rfl, hremoved⟩
    · split
      · exact ih p hremoved hlater
      · have hnext := ih ⟨insert ref p.removed, p.total - tokens_of env ref.item⟩ (by
          intro r hr
          rcases Finset.mem_insert.1 hr with rfl | hin
          · exact hrest _ List.mem_cons_self
          · exact hremoved r hin) hlater
        rw [Finset.image_insert] at hnext
        exact hnext

theorem kept_items_none (cid : String) (ev_list : List (EvidenceItem δ ρ)) :
    kept_items ∅ cid ev_list = ev_list := by
  have hall : ev_list.zipIdx.filter (fun x => (cid, x.2) ∉ (∅ : Finset (String × Nat))) =
      ev_list.zipIdx :=
    List.filter_eq_self.2 fun x _ => by simp
  show (ev_list.zipIdx.filter fun x => (cid, x.2) ∉ (∅ : Finset (String × Nat))).map Prod.fst = _
  rw [hall, List.zipIdx_map_fst]

theorem remaining_none (trimmed : CriteriaEvidence δ ρ) (cid : String) :
    remaining trimmed ∅ cid = ((trimmed.get? cid).getD []).length := by
  unfold remaining
  rw [kept_items_none]

/-- The tokens of some references, as integers. -/
theorem cast_tokens (env : Budgets) (refs : List (ScoredRef δ ρ)) :
    ((refs.map fun ref => tokens_of env ref.item).sum : Int) =
      (refs.map fun ref => (tokens_of env ref.item : Int)).sum := by
  induction refs with
  | nil => rfl
  | cons ref rest ih =>
    rw [List.map_cons, List.map_cons, List.sum_cons, List.sum_cons, ← ih]
    push_cast
    rfl

theorem total_tokens_eq (env : Budgets) (trimmed : CriteriaEvidence δ ρ) :
    (total_tokens env trimmed : Int) =
      ((scored_refs trimmed).map fun ref => (tokens_of env ref.item : Int)).sum := by
  have hsame : map_lists (kept_items ∅) trimmed = trimmed := by
    unfold map_lists
    congr 1
    exact (List.map_congr_left fun entry _ => by rw [kept_items_none]; rfl).trans (List.map_id _)
  have hall : (scored_refs trimmed).filter (fun ref => place ref ∉ (∅ : Finset (String × Nat))) =
      scored_refs trimmed := List.filter_eq_self.2 fun ref _ => by simp
  have hkept : total_tokens env (map_lists (kept_items ∅) trimmed) = _ := total_tokens_kept env
  rw [hsame, hall] at hkept
  rw [hkept, cast_tokens]

/-- What the report step leaves, given the places that it removes. -/
structure Removed (env : Budgets) (trimmed : CriteriaEvidence δ ρ) (budget : Int)
    (removed : Finset (String × Nat)) : Prop where
  floored : ∀ cid, min MIN_EVIDENCE_PER_CRITERIA ((trimmed.get? cid).getD []).length ≤
    remaining trimmed removed cid
  enough : (total_tokens env (map_lists (kept_items removed) trimmed) : Int) ≤ budget ∨
    ∀ cid, remaining trimmed removed cid ≤ MIN_EVIDENCE_PER_CRITERIA
  lowest : ∀ gone ∈ scored_refs trimmed, place gone ∈ removed →
    ∀ still ∈ scored_refs trimmed, place still ∉ removed →
      MIN_EVIDENCE_PER_CRITERIA < remaining trimmed removed still.cid →
        score_of gone.item ≤ score_of still.item

/-- The report step is a sweep over the references, lowest score first. -/
theorem removed_places_spec (env : Budgets) (trimmed : CriteriaEvidence δ ρ) (budget : Int) :
    Removed env trimmed budget (removed_places env trimmed budget) := by
  classical
  have hperm : ((scored_refs trimmed).insertionSort fun a b => score_of a.item ≤ score_of b.item).Perm
      (scored_refs trimmed) := List.perm_insertionSort _ _
  have hsorted : ((scored_refs trimmed).insertionSort fun a b =>
      score_of a.item ≤ score_of b.item).Pairwise fun a b => score_of a.item ≤ score_of b.item := by
    have htotal : Std.Total fun a b : ScoredRef δ ρ => score_of a.item ≤ score_of b.item :=
      ⟨fun a b => le_total _ _⟩
    have htrans : IsTrans (ScoredRef δ ρ) fun a b => score_of a.item ≤ score_of b.item :=
      ⟨fun a b c hab hbc => hab.trans hbc⟩
    exact List.pairwise_insertionSort _ _
  have hswept : ∀ start : sweep.Pass (ScoredRef δ ρ),
      start = ⟨∅, ((scored_refs trimmed).map fun ref => (tokens_of env ref.item : Int)).sum⟩ →
        sweep.Swept (fun ref => ref.cid) (fun ref => (tokens_of env ref.item : Int))
          (fun ref => score_of ref.item) (scored_refs trimmed) budget MIN_EVIDENCE_PER_CRITERIA
          (sweep.pass (fun ref => ref.cid) (fun ref => (tokens_of env ref.item : Int))
            (scored_refs trimmed) budget MIN_EVIDENCE_PER_CRITERIA
            ((scored_refs trimmed).insertionSort fun a b => score_of a.item ≤ score_of b.item)
            start).removed := by
    rintro start rfl
    exact sweep.pass_sweeps scored_refs_nodup hperm hsorted
  obtain ⟨hloop, hfrom⟩ := removal_loop_eq env trimmed budget
    ((scored_refs trimmed).insertionSort fun a b => score_of a.item ≤ score_of b.item)
    ⟨∅, (total_tokens env trimmed : Int)⟩ (fun r hr => absurd hr (Finset.notMem_empty r))
    fun r hr => hperm.mem_iff.1 hr
  have hend := hswept ⟨∅, (total_tokens env trimmed : Int)⟩ (by rw [total_tokens_eq])
  have hplaces : removed_places env trimmed budget = _ := congrArg Removal.removed hloop
  dsimp only at hplaces
  rw [hplaces]
  generalize (sweep.pass (fun ref : ScoredRef δ ρ => ref.cid) _ (scored_refs trimmed) budget
    MIN_EVIDENCE_PER_CRITERIA _ _).removed = removed at hend hfrom ⊢
  have hcount := remaining_eq hfrom
  refine ⟨fun cid => ?_, ?_, ?_⟩
  · have hnone : sweep.remaining _ (scored_refs trimmed) ∅ cid = _ :=
      remaining_eq (fun r hr => absurd hr (Finset.notMem_empty r)) cid
    rw [Finset.image_empty, remaining_none] at hnone
    rw [← hnone, ← hcount]
    exact hend.floored cid
  · rw [total_tokens_kept, ← left_eq hfrom]
    rcases hend.enough with hfits | hfew
    · refine .inl ?_
      rw [cast_tokens]
      exact hfits
    · exact .inr fun cid => hcount cid ▸ hfew cid
  · intro gone hgone hin still hstill hnot habove
    rw [place_mem_image hfrom hgone] at hin
    rw [place_mem_image hfrom hstill] at hnot
    rw [← hcount] at habove
    exact hend.lowest gone hin still (sweep.mem_left.2 ⟨hstill, hnot⟩) habove

end removal

/-! ## The report -/

section report

variable [DecidableEq δ]

/-- The result is what is left of the trimmed lists without the removed places. -/
structure LeftOf (env : Budgets) (criteria_evidence result : CriteriaEvidence δ ρ)
    (removed : Finset (String × Nat)) : Prop where
  lists : ∀ cid ev, criteria_evidence.get? cid = some ev →
    result.get? cid = some (kept_items removed cid (trim_evidence_to_budget env ev 0))
  lowest : ∀ cid ev idx gone, criteria_evidence.get? cid = some ev →
    (trim_evidence_to_budget env ev 0)[idx]? = some gone → (cid, idx) ∈ removed →
      ∀ other items, result.get? other = some items → MIN_EVIDENCE_PER_CRITERIA < items.length →
        ∀ still ∈ items, score_of gone ≤ score_of still

/-- What the trim of a report gives. -/
structure ReportTrimmed (env : Budgets) (budget : Int)
    (criteria_evidence result : CriteriaEvidence δ ρ) : Prop where
  criteria : result.keys = criteria_evidence.keys
  kept : ∀ cid ev, criteria_evidence.get? cid = some ev → ∃ items, result.get? cid = some items ∧
    items.Sublist (trim_evidence_to_budget env ev 0) ∧
      min MIN_EVIDENCE_PER_CRITERIA ev.length ≤ items.length
  enough : (total_tokens env result : Int) ≤ budget ∨
    ∀ cid items, result.get? cid = some items → items.length ≤ MIN_EVIDENCE_PER_CRITERIA
  lowest : ∃ removed, LeftOf env criteria_evidence result removed

/-- The trim of a report, for every map of evidence and every budget. -/
theorem report_trim_is_correct (env : Budgets) (criteria_evidence : CriteriaEvidence δ ρ) (max_tokens : Int) :
    ReportTrimmed env (budget_or max_tokens env.total_report_budget) criteria_evidence
      (apply_report_budget env criteria_evidence max_tokens) := by
  have htrim : ∀ cid ev, criteria_evidence.get? cid = some ev →
      (map_lists (fun _ ev => trim_evidence_to_budget env ev 0) criteria_evidence).get? cid =
        some (trim_evidence_to_budget env ev 0) := by
    intro cid ev hget
    rw [get?_map_lists, hget]
    rfl
  have hleast : ∀ ev : List (EvidenceItem δ ρ), min MIN_EVIDENCE_PER_CRITERIA ev.length ≤
      (trim_evidence_to_budget env ev 0).length := fun ev => (trim_is_correct env ev 0).at_least
  have hkeys := keys_map_lists (fun _ ev => trim_evidence_to_budget env ev 0) criteria_evidence
  unfold apply_report_budget
  dsimp only
  generalize map_lists (fun _ ev => trim_evidence_to_budget env ev 0) criteria_evidence = trimmed
    at htrim hkeys ⊢
  by_cases hfits : (total_tokens env trimmed : Int) ≤ budget_or max_tokens env.total_report_budget
  · rw [if_pos hfits]
    refine ⟨hkeys, fun cid ev hget => ⟨_, htrim cid ev hget, List.Sublist.refl _, hleast ev⟩,
      .inl hfits, ∅, fun cid ev hget => ?_, fun cid ev idx gone _ _ hin => ?_⟩
    · rw [kept_items_none]
      exact htrim cid ev hget
    · exact absurd hin (Finset.notMem_empty _)
  rw [if_neg hfits]
  have hspec := removed_places_spec env trimmed (budget_or max_tokens env.total_report_budget)
  generalize removed_places env trimmed _ = removed at hspec ⊢
  have hlists : ∀ cid ev, criteria_evidence.get? cid = some ev →
      (map_lists (kept_items removed) trimmed).get? cid =
        some (kept_items removed cid (trim_evidence_to_budget env ev 0)) := by
    intro cid ev hget
    rw [get?_map_lists, htrim cid ev hget]
    rfl
  refine ⟨?_, fun cid ev hget => ?_, ?_, removed, hlists, ?_⟩
  · rw [keys_map_lists, hkeys]
  · refine ⟨_, hlists cid ev hget, kept_items_sublist cid _, ?_⟩
    have hfloor := hspec.floored cid
    have hevidence := hleast ev
    rw [remaining_get? (hlists cid ev hget), htrim cid ev hget, Option.getD_some] at hfloor
    omega
  · refine hspec.enough.imp id fun hfew cid items hget => ?_
    rw [← remaining_get? hget]
    exact hfew cid
  · intro cid ev idx gone hget hgone hin other items hitems habove still hstill
    rw [← remaining_get? hitems] at habove
    rw [get?_map_lists] at hitems
    obtain ⟨ev_list, hlist, rfl⟩ := Option.map_eq_some_iff.1 hitems
    obtain ⟨ref, href, rfl, rfl, hnot⟩ := (mem_kept_items hlist).1 hstill
    have hplace : (⟨cid, idx, gone⟩ : ScoredRef δ ρ) ∈ scored_refs trimmed :=
      mem_scored_refs.2 ⟨_, htrim cid ev hget, hgone⟩
    exact hspec.lowest _ hplace hin ref href hnot habove

end report

end bid_evaluation.budget_laws
