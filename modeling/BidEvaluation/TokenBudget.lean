-- `token_budget.py`: how much evidence goes into one criterion and into one
-- report. Evidence items are dictionaries; the keys that the trim does not
-- read stay together in `others`. Scores are rationals.
import BidEvaluation.Values
import Mathlib.Algebra.Order.Ring.Rat
import Mathlib.Data.Finset.Insert
import Mathlib.Data.List.Sort

open dict_lib bid_evaluation.values

namespace bid_evaluation.token_budget

/-! ## Settings -/

def MIN_EVIDENCE_PER_CRITERIA : Nat := 2

def MAX_EVIDENCE_PER_CRITERIA : Nat := 8

/-- The budgets of the environment, and how many tokens `tiktoken` gives a
text, when it is there. -/
structure Budgets where
  single_criteria_budget : Int
  total_report_budget : Int
  encoder : Option (String → Nat)

def count_tokens (env : Budgets) (text : String) : Nat :=
  match env.encoder with
  | none => max 1 (text.utf8ByteSize / 4)
  | some enc => enc text

/-- `max_tokens or DEFAULT`. -/
def budget_or (max_tokens default : Int) : Int := if max_tokens = 0 then default else max_tokens

/-! ## Evidence -/

structure EvidenceItem (δ ρ : Type) where
  score_raw : Option Rat
  text : Option String
  document_id : Option δ
  others : ρ
deriving DecidableEq

variable {δ ρ : Type}

def score_of (item : EvidenceItem δ ρ) : Rat := item.score_raw.getD 0

def tokens_of (env : Budgets) (item : EvidenceItem δ ρ) : Nat :=
  count_tokens env (item.text.getD "")

def tokens_in (env : Budgets) (items : List (EvidenceItem δ ρ)) : Nat :=
  (items.map (tokens_of env)).sum

/-! ## One criterion -/

/-- The loop of `_dedup_by_document`. -/
structure Dedup (δ ρ : Type) where
  seen_docs : List δ
  kept : List (EvidenceItem δ ρ)
  deferred : List (EvidenceItem δ ρ)

def dedup_step [DecidableEq δ] (d : Dedup δ ρ) (item : EvidenceItem δ ρ) : Dedup δ ρ :=
  match item.document_id with
  | none => { d with kept := d.kept ++ [item] }
  | some doc_id =>
    if doc_id ∉ d.seen_docs then
      { d with seen_docs := d.seen_docs ++ [doc_id], kept := d.kept ++ [item] }
    else { d with deferred := d.deferred ++ [item] }

def dedup_by_document [DecidableEq δ] (ranked : List (EvidenceItem δ ρ)) :
    List (EvidenceItem δ ρ) :=
  let d := ranked.foldl dedup_step ⟨[], [], []⟩
  if d.kept.length < MIN_EVIDENCE_PER_CRITERIA then
    d.kept ++ d.deferred.take (MIN_EVIDENCE_PER_CRITERIA - d.kept.length)
  else d.kept

/-- `sorted(..., reverse=True)` keeps the order of items with one score. -/
def ranked_by_score (evidence : List (EvidenceItem δ ρ)) : List (EvidenceItem δ ρ) :=
  evidence.insertionSort fun a b => score_of b ≤ score_of a

/-- The last loop of the trim, with what is in the result so far. -/
def cut (env : Budgets) (budget : Int) :
    List (EvidenceItem δ ρ) → List (EvidenceItem δ ρ) → Nat → List (EvidenceItem δ ρ)
  | [], result, _ => result
  | item :: rest, result, total =>
    let tokens := tokens_of env item
    if budget < (total + tokens : Nat) ∧ MIN_EVIDENCE_PER_CRITERIA ≤ result.length then result
    else cut env budget rest (result ++ [item]) (total + tokens)

def trim_evidence_to_budget [DecidableEq δ] (env : Budgets) (evidence : List (EvidenceItem δ ρ))
    (max_tokens : Int) : List (EvidenceItem δ ρ) :=
  let budget := budget_or max_tokens env.single_criteria_budget
  if evidence = [] then evidence
  else
    let ranked := (ranked_by_score evidence).take MAX_EVIDENCE_PER_CRITERIA
    cut env budget (dedup_by_document ranked) [] 0

/-! ## One report -/

abbrev CriteriaEvidence (δ ρ : Type) := Dict String (List (EvidenceItem δ ρ))

def total_tokens (env : Budgets) (criteria_evidence : CriteriaEvidence δ ρ) : Nat :=
  ((criteria_evidence.entries.flatMap Prod.snd).map (tokens_of env)).sum

/-- An item of the report: its criterion, its index there, and the item. -/
structure ScoredRef (δ ρ : Type) where
  cid : String
  idx : Nat
  item : EvidenceItem δ ρ
deriving DecidableEq

def scored_refs (trimmed : CriteriaEvidence δ ρ) : List (ScoredRef δ ρ) :=
  trimmed.entries.flatMap fun entry => entry.2.zipIdx.map fun (item, idx) => ⟨entry.1, idx, item⟩

/-- The items of a criterion that were not removed. -/
def kept_items (removed : Finset (String × Nat)) (cid : String) (ev_list : List (EvidenceItem δ ρ)) :
    List (EvidenceItem δ ρ) :=
  (ev_list.zipIdx.filter fun (_, i) => (cid, i) ∉ removed).map Prod.fst

def remaining (trimmed : CriteriaEvidence δ ρ) (removed : Finset (String × Nat)) (cid : String) :
    Nat :=
  (kept_items removed cid ((trimmed.get? cid).getD [])).length

structure Removal where
  removed : Finset (String × Nat)
  total : Int

/-- The loop over the references, lowest score first. -/
def removal_loop (env : Budgets) (trimmed : CriteriaEvidence δ ρ) (budget : Int) :
    List (ScoredRef δ ρ) → Removal → Removal
  | [], r => r
  | ref :: rest, r =>
    if r.total ≤ budget then r
    else if remaining trimmed r.removed ref.cid ≤ MIN_EVIDENCE_PER_CRITERIA then
      removal_loop env trimmed budget rest r
    else removal_loop env trimmed budget rest
      ⟨insert (ref.cid, ref.idx) r.removed, r.total - tokens_of env ref.item⟩

/-- `{cid: f(cid, ev) for cid, ev in d.items()}`. -/
def map_lists (f : String → List (EvidenceItem δ ρ) → List (EvidenceItem δ ρ))
    (d : CriteriaEvidence δ ρ) : CriteriaEvidence δ ρ where
  entries := d.entries.map fun entry => (entry.1, f entry.1 entry.2)
  keys_nodup := by
    rw [List.map_map]
    exact d.keys_nodup

/-- The places that the report step removes. -/
def removed_places (env : Budgets) (trimmed : CriteriaEvidence δ ρ) (budget : Int) :
    Finset (String × Nat) :=
  (removal_loop env trimmed budget
    ((scored_refs trimmed).insertionSort fun a b => score_of a.item ≤ score_of b.item)
      ⟨∅, total_tokens env trimmed⟩).removed

def apply_report_budget [DecidableEq δ] (env : Budgets) (criteria_evidence : CriteriaEvidence δ ρ)
    (max_tokens : Int) : CriteriaEvidence δ ρ :=
  let budget := budget_or max_tokens env.total_report_budget
  let trimmed := map_lists (fun _ ev => trim_evidence_to_budget env ev 0) criteria_evidence
  if (total_tokens env trimmed : Int) ≤ budget then trimmed
  else map_lists (kept_items (removed_places env trimmed budget)) trimmed

end bid_evaluation.token_budget
