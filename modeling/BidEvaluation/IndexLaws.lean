-- The laws of the index names. The parts of a name are joined by an
-- underscore, which a part can have too, and the pattern of a part lets a
-- newline at its end through.
import BidEvaluation.Operations

open stepwise bid_evaluation.values bid_evaluation.core bid_evaluation.store_retrieval
  bid_evaluation.operations

namespace bid_evaluation.index_laws

/-! ## Segments -/

/-- A segment of the characters that the error message names. -/
def PlainSegment (value : String) : Prop := ∀ c ∈ value.toList, is_safe_char c = true

instance (value : String) : Decidable (PlainSegment value) :=
  inferInstanceAs (Decidable (∀ c ∈ value.toList, is_safe_char c = true))

def EndsInNewline (value : String) : Prop := value.toList.getLast? = some '\n'

instance (value : String) : Decidable (EndsInNewline value) :=
  inferInstanceAs (Decidable (_ = _))

/-- An accepted segment is plain unless it ends in a newline. -/
theorem plain_iff_of_safe {value : String} (h : is_safe_id value = true) :
    PlainSegment value ↔ ¬ EndsInNewline value := by
  constructor
  · intro hplain hnewline
    have hsafe := hplain '\n' (List.mem_of_getLast? hnewline)
    revert hsafe
    decide
  · intro hno
    unfold is_safe_id at h
    split at h
    · exact absurd ‹_› hno
    · simp only [ne_eq, Bool.and_eq_true, List.all_eq_true] at h
      exact h.2

/-! ## Names -/

/-- The first pair has a piece at the start of its project that the second
has at the end of its tenant. -/
def Shifted (a b : String × String) : Prop :=
  ∃ w, b.1 = a.1 ++ "_" ++ w ∧ a.2 = w ++ "_" ++ b.2

/-- A shift makes the tenant longer. -/
theorem not_shifted_of_same {a b : String × String} (h : a.1 = b.1) : ¬ Shifted a b := by
  rintro ⟨w, hlonger, -⟩
  rw [h] at hlonger
  have hlength := congrArg String.length hlonger
  simp only [String.length_append] at hlength
  have hsep : "_".length = 1 := rfl
  omega

theorem safe_of_validated {value field_name : String} {w : World} {u : Unit}
    (h : (validate_index_segment value field_name).result w = .ok u) :
    is_safe_id value = true := by
  unfold validate_index_segment at h
  split at h
  · assumption
  · cases h

/-- What an accepted pair gives. -/
theorem name_of_accepted {env : Env} {w : World} {tenant_id project_id name : String}
    (h : (retrieval_index_name env tenant_id project_id).result w = .ok name) :
    is_safe_id tenant_id = true ∧ is_safe_id project_id = true ∧
      name = env.index_prefix ++ "_" ++ tenant_id ++ "_" ++ project_id := by
  unfold retrieval_index_name at h
  rcases htenant : (validate_index_segment tenant_id "tenant_id").result w with e | u
  · rw [result_bind_error htenant] at h
    cases h
  · rw [result_bind htenant] at h
    generalize (validate_index_segment tenant_id "tenant_id").final w = t at h
    rcases hproject : (validate_index_segment project_id "project_id").result t with e | u'
    · rw [result_bind_error hproject] at h
      cases h
    · rw [result_bind hproject] at h
      exact ⟨safe_of_validated htenant, safe_of_validated hproject, (Except.ok.inj h).symm⟩

/-- One side of a split of the same text at two underscores. -/
theorem shifted_of_split {a b : String × String} {w : List Char}
    (hfirst : b.1.toList = a.1.toList ++ w) (hrest : '_' :: a.2.toList = w ++ '_' :: b.2.toList) :
    a = b ∨ Shifted a b := by
  have hsep : "_".toList = ['_'] := by decide
  rcases w with _ | ⟨c, w⟩
  · left
    rw [List.append_nil] at hfirst
    have hsecond := (List.cons.inj hrest).2
    exact Prod.ext (String.toList_injective hfirst.symm) (String.toList_injective hsecond)
  · right
    obtain ⟨rfl, hsecond⟩ := List.cons.inj hrest
    have hpiece : (String.ofList w).toList = w := String.toList_ofList
    refine ⟨String.ofList w, String.toList_injective ?_, String.toList_injective ?_⟩
    · rw [String.toList_append, String.toList_append, hpiece, hsep, hfirst, List.append_assoc,
        List.singleton_append]
    · rw [String.toList_append, String.toList_append, hpiece, hsep, hsecond, List.append_assoc,
        List.singleton_append]
      rfl

/-- Two joins of two parts are equal only if the parts are, or if a piece
went from one part to the other. -/
theorem joined_eq_iff {a b : String × String} :
    a.1 ++ "_" ++ a.2 = b.1 ++ "_" ++ b.2 ↔ a = b ∨ Shifted a b ∨ Shifted b a := by
  have hsep : "_".toList = ['_'] := rfl
  constructor
  · intro h
    have hlists := congrArg String.toList h
    simp only [String.toList_append, hsep, List.append_assoc, List.singleton_append] at hlists
    rcases List.append_eq_append_iff.1 hlists with ⟨w, hfirst, hrest⟩ | ⟨w, hfirst, hrest⟩
    · exact (shifted_of_split hfirst hrest).imp_right .inl
    · exact (shifted_of_split hfirst hrest).imp Eq.symm .inr
  · rintro (rfl | ⟨w, hfirst, hsecond⟩ | ⟨w, hfirst, hsecond⟩)
    · rfl
    · rw [hfirst, hsecond]
      simp only [String.append_assoc]
    · rw [hfirst, hsecond]
      simp only [String.append_assoc]

/-- Different pairs get different names, and all four segments are plain. -/
def NamesSeparate (a b : String × String) (name name' : String) : Prop :=
  (name = name' → a = b) ∧ PlainSegment a.1 ∧ PlainSegment a.2 ∧ PlainSegment b.1 ∧
    PlainSegment b.2

/-- Two accepted pairs are separate exactly when no piece can go over the
underscore between their parts and no part ends in a newline. -/
theorem index_names_separate_iff (env : Env) (w w' : World) (a b : String × String)
    (name name' : String) (ha : (retrieval_index_name env a.1 a.2).result w = .ok name)
    (hb : (retrieval_index_name env b.1 b.2).result w' = .ok name') :
    NamesSeparate a b name name' ↔ (¬ Shifted a b ∧ ¬ Shifted b a) ∧
      ¬ EndsInNewline a.1 ∧ ¬ EndsInNewline a.2 ∧ ¬ EndsInNewline b.1 ∧ ¬ EndsInNewline b.2 := by
  obtain ⟨ht, hp, rfl⟩ := name_of_accepted ha
  obtain ⟨ht', hp', rfl⟩ := name_of_accepted hb
  have hnames : env.index_prefix ++ "_" ++ a.1 ++ "_" ++ a.2 =
      env.index_prefix ++ "_" ++ b.1 ++ "_" ++ b.2 ↔ a = b ∨ Shifted a b ∨ Shifted b a := by
    rw [← joined_eq_iff]
    simp only [String.append_assoc, String.append_right_inj]
  unfold NamesSeparate
  rw [hnames, plain_iff_of_safe ht, plain_iff_of_safe hp, plain_iff_of_safe ht',
    plain_iff_of_safe hp']
  refine and_congr_left fun _ => ?_
  constructor
  · intro h
    constructor
    · intro hshifted
      have heq := h (.inr (.inl hshifted))
      exact not_shifted_of_same (congrArg Prod.fst heq) hshifted
    · intro hshifted
      have heq := h (.inr (.inr hshifted))
      exact not_shifted_of_same (congrArg Prod.fst heq.symm) hshifted
  · rintro ⟨hno, hno'⟩ (heq | hshifted | hshifted)
    · exact heq
    · exact absurd hshifted hno
    · exact absurd hshifted hno'

theorem two_projects_are_separate : NamesSeparate ("acme", "prj_1") ("acme", "prj_2")
    "lightrag_acme_prj_1" "lightrag_acme_prj_2" := by
  exact (index_names_separate_iff calm_env World.start World.start _ _ _ _ rfl rfl).2
    ⟨⟨not_shifted_of_same rfl, not_shifted_of_same rfl⟩, by decide⟩

/-- Two tenants share an index, and a tenant with a newline is accepted. -/
theorem underscore_and_newline_meet :
    ((retrieval_index_name calm_env "acme_eu" "bids").result World.start = .ok "lightrag_acme_eu_bids" ∧
      (retrieval_index_name calm_env "acme" "eu_bids").result World.start =
        .ok "lightrag_acme_eu_bids" ∧ ¬ NamesSeparate ("acme_eu", "bids") ("acme", "eu_bids")
          "lightrag_acme_eu_bids" "lightrag_acme_eu_bids") ∧
    (retrieval_index_name calm_env "acme\n" "bids").result World.start =
      .ok "lightrag_acme\n_bids" ∧ ¬ PlainSegment "acme\n" := by
  refine ⟨⟨rfl, rfl, fun h => ?_⟩, rfl, by decide⟩
  have hsame := h.1 rfl
  revert hsame
  decide

end bid_evaluation.index_laws
