-- The laws of the reranker. Each way to order the items keeps every item
-- once, changes no field but the rank, and has the best items first. Items
-- of one rank stay in the order in which they came.
import BidEvaluation.Lib.HalfEven
import BidEvaluation.Lib.SortedWindow
import BidEvaluation.RetrievalSteps
import Mathlib.Algebra.Order.BigOperators.Group.List
import Mathlib.Data.Rat.Floor
import Mathlib.Tactic.Positivity

open dict_lib stepwise sorted_window bid_evaluation.values bid_evaluation.core
  bid_evaluation.store_retrieval bid_evaluation.admin_store bid_evaluation.reranker
  bid_evaluation.retrieval bid_evaluation.retrieval_steps

namespace bid_evaluation.rerank_laws

/-! ## Numbers -/

/-- `math.log` gets larger from 1 on, where it is 0. -/
structure LogRises (log : Rat → Rat) : Prop where
  one : log 1 = 0
  mono : ∀ x y, 1 ≤ x → x ≤ y → log x ≤ log y

/-- `round(x, 4)` keeps the order, and 0 and 1 are round. -/
structure RoundsInOrder (round4 : Rat → Rat) : Prop where
  mono : ∀ x y, x ≤ y → round4 x ≤ round4 y
  zero : round4 0 = 0
  one : round4 1 = 1

/-- Rounding to the nearest of four places, with ties to even. -/
theorem places_round_in_order : RoundsInOrder (half_even.to_places 4) where
  mono _ _ h := half_even.to_places_mono 4 h
  zero := by decide +kernel
  one := by decide +kernel

theorem LogRises.nonneg {log : Rat → Rat} (h : LogRises log) {x : Rat} (hx : 1 ≤ x) : 0 ≤ log x := by
  have hone := h.mono 1 x (le_refl 1) hx
  rwa [h.one] at hone

/-! ## The weight of a term -/

variable {env : Rerankers} {query_tokens doc_tokens : List String} {docs : List (List String)}

/-- How rare a term is that stands in `df` of `n` documents. -/
def idf (env : Rerankers) (n df : Nat) : Rat := env.log ((n + 1) / (df + 1)) + 1

theorem one_le_idf (hlog : LogRises env.log) {n df : Nat} (h : df ≤ n) : 1 ≤ idf env n df := by
  have hpos : (0 : Rat) < df + 1 := by positivity
  have hquotient : (1 : Rat) ≤ (n + 1) / (df + 1) := by
    rw [le_div_iff₀ hpos, one_mul]
    exact_mod_cast Nat.succ_le_succ h
  have hnonneg := hlog.nonneg hquotient
  unfold idf
  linarith

/-- No term is rarer than one of a single document. -/
theorem idf_le_one_document (hlog : LogRises env.log) {n df : Nat} (hsome : 1 ≤ df) (h : df ≤ n) :
    idf env n df ≤ idf env n 1 := by
  have hpos : (0 : Rat) < df + 1 := by positivity
  have hquotient : (1 : Rat) ≤ (n + 1) / (df + 1) := by
    rw [le_div_iff₀ hpos, one_mul]
    exact_mod_cast Nat.succ_le_succ h
  have hless : ((n : Rat) + 1) / (df + 1) ≤ (n + 1) / ((1 : Nat) + 1) := by
    apply div_le_div_of_nonneg_left (by positivity) (by positivity)
    exact_mod_cast Nat.succ_le_succ hsome
  have hmono := hlog.mono _ _ hquotient hless
  unfold idf
  linarith

/-- The part of a document that is a given term. -/
def tf (doc_tokens : List String) (term : String) : Rat :=
  doc_tokens.count term / doc_tokens.length

theorem tf_nonneg (doc_tokens : List String) (term : String) : 0 ≤ tf doc_tokens term := by
  unfold tf
  positivity

theorem tf_le_one (doc_tokens : List String) (term : String) : tf doc_tokens term ≤ 1 := by
  unfold tf
  apply div_le_one_of_le₀ _ (by positivity)
  exact_mod_cast List.count_le_length

/-- The document is among those that have the term. -/
theorem document_frequency (hdoc : doc_tokens ∈ docs) {term : String} (hterm : term ∈ doc_tokens) :
    1 ≤ (docs.filter (term ∈ ·)).length ∧ (docs.filter (term ∈ ·)).length ≤ docs.length := by
  constructor
  · apply List.length_pos_of_mem (a := doc_tokens)
    exact List.mem_filter.2 ⟨hdoc, by simpa using hterm⟩
  · exact List.length_filter_le _ _

/-! ## The quotient -/

/-- What a term of the query adds to the score, and what it could add at
most. -/
def term_score (env : Rerankers) (query_tokens : List String) (docs : List (List String))
    (doc_tokens : List String) (term : String) : Rat :=
  query_tokens.count term * tf doc_tokens term *
    idf env docs.length (docs.filter (term ∈ ·)).length

def term_most (env : Rerankers) (query_tokens : List String) (docs : List (List String))
    (term : String) : Rat :=
  query_tokens.count term * idf env docs.length 1

theorem term_score_bounds (hlog : LogRises env.log) (hdoc : doc_tokens ∈ docs) {term : String}
    (hterm : term ∈ doc_tokens) : 0 ≤ term_score env query_tokens docs doc_tokens term ∧
      term_score env query_tokens docs doc_tokens term ≤ term_most env query_tokens docs term := by
  obtain ⟨hsome, hall⟩ := document_frequency hdoc hterm
  have hone := one_le_idf hlog hall
  have hle := idf_le_one_document hlog hsome hall
  have hcount : (0 : Rat) ≤ query_tokens.count term := by positivity
  have htf := tf_nonneg doc_tokens term
  have hweight : 0 ≤ query_tokens.count term * tf doc_tokens term := mul_nonneg hcount htf
  unfold term_score term_most
  constructor
  · exact mul_nonneg hweight (by linarith)
  · apply mul_le_mul _ hle (by linarith) hcount
    exact mul_le_of_le_one_right hcount (tf_le_one doc_tokens term)

theorem term_most_nonneg (hlog : LogRises env.log) (hdocs : docs ≠ []) (term : String) :
    0 ≤ term_most env query_tokens docs term := by
  have hone := one_le_idf hlog (n := docs.length) (List.length_pos_of_ne_nil hdocs)
  unfold term_most
  exact mul_nonneg (by positivity) (by linarith)

/-- The tf-idf part of a score, for any vocabulary. -/
theorem tfidf_score_bounds (hlog : LogRises env.log) (hdoc : doc_tokens ∈ docs) :
    0 ≤ tfidf_score env query_tokens docs doc_tokens ∧
      tfidf_score env query_tokens docs doc_tokens ≤ 1 := by
  have hsome : ∀ term ∈ query_tokens.dedup.filter (· ∈ doc_tokens), term ∈ doc_tokens := by
    intro term hin
    exact of_decide_eq_true (List.mem_filter.1 hin).2
  have hmost : ∀ term, 0 ≤ term_most env query_tokens docs term :=
    term_most_nonneg hlog (List.ne_nil_of_mem hdoc)
  have hscore : 0 ≤ ((query_tokens.dedup.filter (· ∈ doc_tokens)).map
      (term_score env query_tokens docs doc_tokens)).sum := by
    apply List.sum_nonneg
    intro x hx
    obtain ⟨term, hin, rfl⟩ := List.mem_map.1 hx
    exact (term_score_bounds hlog hdoc (hsome term hin)).1
  have hle : ((query_tokens.dedup.filter (· ∈ doc_tokens)).map
      (term_score env query_tokens docs doc_tokens)).sum ≤
        (query_tokens.dedup.map (term_most env query_tokens docs)).sum := by
    calc _ ≤ ((query_tokens.dedup.filter (· ∈ doc_tokens)).map
            (term_most env query_tokens docs)).sum := by
          apply List.sum_le_sum
          intro term hin
          exact (term_score_bounds hlog hdoc (hsome term hin)).2
      _ ≤ _ := by
          apply (List.filter_sublist.map _).sum_le_sum
          intro x hx
          obtain ⟨term, -, rfl⟩ := List.mem_map.1 hx
          exact hmost term
  unfold tfidf_score
  dsimp only
  split
  · exact ⟨le_refl 0, zero_le_one⟩
  · split
    · rename_i hpos
      exact ⟨div_nonneg hscore hpos.le, (div_le_one hpos).2 hle⟩
    · exact ⟨le_refl 0, zero_le_one⟩

/-! ## Rankings -/

/-- Each item once, in its place, with another rank. -/
def Copies (items copies : List Item) : Prop :=
  List.Forall₂ (fun item copy => ∃ r, copy = { item with score_rerank := r }) items copies

/-- A ranking has copies of the items, the best first, and those of one score
in their order. -/
structure Ranks (score : Item → Rat) (items ranking : List Item) : Prop where
  copies : ∃ scored, Copies items scored ∧ ranking.Perm scored ∧
    ∀ v, ranking.filter (fun item => score item = v) = scored.filter fun item => score item = v
  sorted : ranking.Pairwise fun a b => score b ≤ score a

theorem copies_map {f : Item → Item} (hf : ∀ item, ∃ r, f item = { item with score_rerank := r })
    (items : List Item) : Copies items (items.map f) := by
  unfold Copies
  rw [List.forall₂_map_right_iff, List.forall₂_same]
  intro item _
  exact hf item

theorem ranks_sorted_map {f : Item → Item} (hf : ∀ item, ∃ r, f item = { item with score_rerank := r })
    (score : Item → Rat) (items : List Item) : Ranks score items (sorted_by score (items.map f)) where
  copies := ⟨items.map f, copies_map hf items, List.perm_insertionSort _ _,
    fun v => same_key_sorted_down (items.map f) v⟩
  sorted := sorted_by_key_down (items.map f)

/-- A rank from 0 to 1. -/
def RankInUnit (item : Item) : Prop := ∃ r, item.score_rerank = some (some r) ∧ 0 ≤ r ∧ r ≤ 1

theorem ranked_in_unit (hround : RoundsInOrder env.round4) {score : Rat} (hlow : 0 ≤ score)
    (hhigh : score ≤ 1) (item : Item) : RankInUnit (ranked env item score) := by
  refine ⟨env.round4 score, rfl, ?_, ?_⟩
  · rw [← hround.zero]
    exact hround.mono _ _ hlow
  · rw [← hround.one]
    exact hround.mono _ _ hhigh

/-! ## The simple reranker -/

variable {query : String} {items : List Item}

theorem rerank_simple_ranks (env : Rerankers) (query : String) (items : List Item) :
    Ranks rank_of items (rerank_simple env query items) := by
  unfold rerank_simple
  dsimp only
  split
  · exact ranks_sorted_map (fun _ => ⟨_, rfl⟩) rank_of items
  · exact ranks_sorted_map (fun _ => ⟨_, rfl⟩) rank_of items

theorem rerank_simple_in_unit (hlog : LogRises env.log) (hround : RoundsInOrder env.round4)
    (hraw : ∀ item ∈ items, 0 ≤ item.score_raw ∧ item.score_raw ≤ 1) :
    ∀ item ∈ rerank_simple env query items, RankInUnit item := by
  intro item hin
  unfold rerank_simple at hin
  dsimp only at hin
  split at hin
  · obtain ⟨old, hold, rfl⟩ := List.mem_map.1 (scope_laws.mem_sorted_by.1 hin)
    exact ranked_in_unit hround (hraw old hold).1 (hraw old hold).2 old
  · obtain ⟨old, hold, rfl⟩ := List.mem_map.1 (scope_laws.mem_sorted_by.1 hin)
    have hdoc : tokenize (text_of env old) ∈ items.map fun item => tokenize (text_of env item) :=
      List.mem_map_of_mem hold
    have htfidf : 0 ≤ tfidf_score env (tokenize query) (items.map fun item => tokenize (text_of env item))
        (tokenize (text_of env old)) := (tfidf_score_bounds hlog hdoc).1
    have hold_raw := (hraw old hold).1
    refine ranked_in_unit hround (le_min zero_le_one ?_) (min_le_left _ _) old
    linarith

/-! ## The law -/

theorem unranked_ranks (items : List Item) : Ranks Item.score_raw items (unranked items) :=
  ranks_sorted_map (fun _ => ⟨_, rfl⟩) Item.score_raw items

/-- When the reranker raised, the items are unranked. -/
theorem degraded_items {env : RetrievalEnv} {args : RetrievalArgs}
    (h : (ranked_items env args items).2 = some "rerank_failed") :
    (ranked_items env args items).1 = unranked items := by
  unfold ranked_items at h ⊢
  by_cases hrank : args.enable_rerank = true
  · rw [if_pos hrank] at h ⊢
    generalize rerank env args.query items = result at h ⊢
    rcases result with e | ranked
    · rfl
    · cases h
  · rw [if_neg hrank] at h
    exact absurd (Option.some.inj h) (by decide)

/-- The simple reranker orders copies of the items by ranks from 0 to 1, and
its tf-idf part is from 0 to 1, too. A query whose reranker failed has copies
of its candidates in the order of their raw scores. -/
theorem rerank_is_a_stable_order (env : RetrievalEnv) (hlog : LogRises env.rerankers.log)
    (hround : RoundsInOrder env.rerankers.round4) (query : String) (items : List Item)
    (hraw : ∀ item ∈ items, 0 ≤ item.score_raw ∧ item.score_raw ≤ 1) :
    (Ranks rank_of items (rerank_simple env.rerankers query items) ∧
      ∀ item ∈ rerank_simple env.rerankers query items, RankInUnit item) ∧
    (∀ query_tokens docs doc_tokens, doc_tokens ∈ docs →
      0 ≤ tfidf_score env.rerankers query_tokens docs doc_tokens ∧
        tfidf_score env.rerankers query_tokens docs doc_tokens ≤ 1) ∧
    ∀ suppliers args w retrieved, (retrieval_query env suppliers args).result w = .ok retrieved →
      retrieved.degrade_reason = some "rerank_failed" → ∃ merged ranking,
        merged_candidates env suppliers args w = .ok merged ∧
        Ranks Item.score_raw (with_terms env w.store args merged) ranking ∧
        retrieved.items = up_to args.top_k ranking := by
  refine ⟨⟨rerank_simple_ranks _ query items, rerank_simple_in_unit hlog hround hraw⟩, ?_, ?_⟩
  · intro query_tokens docs doc_tokens hdoc
    exact tfidf_score_bounds hlog hdoc
  · intro suppliers args w retrieved h hreason
    obtain ⟨name, merged, -, hmerged, rfl⟩ := retrieved_iff.1 h
    refine ⟨merged, _, hmerged, unranked_ranks _, ?_⟩
    unfold retrieved_of
    dsimp only
    rw [degraded_items hreason]

/-- One document, which has the one word of the query. All logarithms are of
1 here. -/
def one_document : RetrievalEnv where
  core := scope_laws.two_rows.core
  rerankers := { scope_laws.two_rows.rerankers with
    log := fun x => x - 1
    round4 := half_even.to_places 4 }
  lightrag_dsn := true
  query_index _ := .swallowed_failure
  lower := id

def one_item : Item :=
  ⟨.str "ck_1", 1 / 2, "matched", ⟨.str "acme", .str "prj_1", .str "sup_1", .none, .none, 1,
    default_bbox⟩, some (.str "warranty"), none⟩

theorem one_document_is_ranked :
    Ranks rank_of [one_item] (rerank_simple one_document.rerankers "warranty" [one_item]) ∧
      ∀ item ∈ rerank_simple one_document.rerankers "warranty" [one_item], RankInUnit item := by
  have hlog : LogRises one_document.rerankers.log := ⟨by decide +kernel, fun x y _ h => sub_le_sub_right h 1⟩
  refine (rerank_is_a_stable_order one_document hlog places_round_in_order "warranty" [one_item] ?_).1
  intro item hin
  rw [List.mem_singleton.1 hin]
  decide +kernel

example : (rerank_simple one_document.rerankers "warranty" [one_item]).map rank_of = [7 / 10] := by
  decide +kernel

end bid_evaluation.rerank_laws
