-- The laws of the parser chain: `parse_with_route` takes the first adapter
-- that works, as long as no answer before it has a value that Python cannot
-- convert.
import BidEvaluation.Lib.Gives
import BidEvaluation.Operations
import BidEvaluation.ParserAdapters

open dict_lib stepwise fallback bid_evaluation.values bid_evaluation.core
  bid_evaluation.operations bid_evaluation.parser_adapters

namespace bid_evaluation.fallback_laws

variable {env : Env} {adapter : HttpParserAdapter} {reply : PostReply} {args : ParseArgs}

/-! ## One adapter -/

/-- The page and the box of a row can be read. -/
def ReadsRow (env : Env) (row : PyDict) : Prop :=
  Yields (page_of_source row) ∧ Yields (normalize_bbox env (box_of_source row) none)

/-- The page of a row is a number, and a box that is no box is refused as such. -/
def RefusesRow (env : Env) (row : PyDict) : Prop :=
  Yields (page_of_source row) ∧
    ∀ e, normalize_bbox env (box_of_source row) none = .error e → ∃ refusal, e = .api refusal

/-- The answer has a payload that makes a chunk. -/
def UsableReply (env : Env) : PostReply → Prop
  | .answered (.dict payload) => ∃ source, source_of payload = some source ∧ ReadsRow env source.fields
  | _ => False

/-- The post fails as a connection fails, and the payload of an answer is
refused at most for its box. -/
def CleanReply (env : Env) : PostReply → Prop
  | .answered (.dict payload) => ∀ source, source_of payload = some source → RefusesRow env source.fields
  | .raises _ _ => False
  | _ => True

/-- An adapter without an endpoint has a chunk of its own. -/
def Usable (env : Env) (adapter : HttpParserAdapter) (reply : PostReply) : Prop :=
  adapter.endpoint ≠ "" → UsableReply env reply

def Clean (env : Env) (adapter : HttpParserAdapter) (reply : PostReply) : Prop :=
  adapter.endpoint ≠ "" → CleanReply env reply

theorem default_box_reads : Yields (normalize_bbox env default_box none) :=
  ⟨_, normalize_int_box (by decide +kernel) (by decide) (by decide)⟩

theorem normalized_chunk_yields {source : PyDict} {parser default_section content_source : String} :
    Yields (normalized_chunk env source parser args default_section content_source) ↔
      ReadsRow env source := by
  unfold normalized_chunk ReadsRow
  dsimp only
  rw [yields_bind]
  constructor
  · rintro ⟨page, hpage, h⟩
    obtain ⟨bbox, hbbox, -⟩ := yields_bind.1 h
    exact ⟨⟨page, hpage⟩, ⟨bbox, hbbox⟩⟩
  · rintro ⟨⟨page, hpage⟩, ⟨bbox, hbbox⟩⟩
    refine ⟨page, hpage, ?_⟩
    rw [hbbox]
    exact yields_pure _

theorem page_error {source : PyDict} {e : PyErr} (h : page_of_source source = .error e) :
    ∀ refusal, e ≠ .api refusal := by
  unfold page_of_source at h
  generalize (PyDict.get source "page").or (.int 1) = value at h
  unfold PyVal.toInt at h
  split at h
  case h_4 =>
    split at h
    · cases h
    · cases h
      simp
  all_goals
    cases h
    try simp

theorem normalized_chunk_caught {source : PyDict} {parser default_section content_source : String} :
    (∀ e, normalized_chunk env source parser args default_section content_source = .error e →
      ∃ refusal, e = .api refusal) ↔ RefusesRow env source := by
  unfold normalized_chunk RefusesRow
  dsimp only
  rcases hpage : page_of_source source with e | page
  · refine iff_of_false ?_ fun h => not_yields_error e h.1
    intro h
    obtain ⟨refusal, heq⟩ := h e rfl
    exact page_error hpage refusal heq
  · rcases hbbox : normalize_bbox env (box_of_source source) none with e | bbox
    · constructor
      · intro h
        exact ⟨yields_ok page, fun e' he' => h e' (he' ▸ rfl)⟩
      · intro h e' he'
        cases he'
        exact h.2 e rfl
    · refine iff_of_true ?_ ⟨yields_ok page, ?_⟩
      · rintro e ⟨⟩
      · rintro e ⟨⟩

/-- The adapter gives a chunk exactly when the answer is usable. -/
theorem parse_yields : Yields (adapter.parse env reply args) ↔ Usable env adapter reply := by
  unfold HttpParserAdapter.parse Usable
  by_cases hstub : adapter.endpoint = ""
  · rw [if_pos hstub]
    refine iff_of_true ?_ fun h => absurd hstub h
    unfold stub_chunk
    rw [yields_bind_iff fun bbox _ => yields_pure _]
    exact default_box_reads
  · rw [if_neg hstub, forall_prop_of_true hstub]
    cases reply with
    | answered payload =>
      cases payload with
      | dict payload =>
        dsimp only [UsableReply]
        unfold chunk_from_response
        rcases source_of payload with _ | source
        · simp
        · simp [normalized_chunk_yields]
      | _ => simp [UsableReply]
    | _ => simp [UsableReply]

/-- The adapter raises errors of the application alone exactly when the
answer is clean. -/
theorem parse_caught : (∀ e, adapter.parse env reply args = .error e → ∃ refusal, e = .api refusal) ↔
    Clean env adapter reply := by
  unfold HttpParserAdapter.parse Clean
  by_cases hstub : adapter.endpoint = ""
  · rw [if_pos hstub]
    refine iff_of_true ?_ fun h => absurd hstub h
    obtain ⟨bbox, hbbox⟩ := @default_box_reads env
    unfold stub_chunk
    rw [hbbox]
    rintro e ⟨⟩
  · rw [if_neg hstub, forall_prop_of_true hstub]
    cases reply with
    | answered payload =>
      cases payload with
      | dict payload =>
        dsimp only [CleanReply]
        unfold chunk_from_response
        rcases source_of payload with _ | source
        · simp [transient]
        · simp [normalized_chunk_caught]
      | _ => simp [CleanReply, transient]
    | _ => simp [CleanReply, transient]

/-! ## The chain -/

/-- The error of the application, which the chain catches. -/
def caught : PyErr → Option ApiError
  | .api e => some e
  | _ => none

theorem caught_iff {e : PyErr} : (caught e).isSome = true ↔ ∃ refusal, e = .api refusal := by
  cases e <;> simp [caught]

variable {registry : Registry} {post_json : Nat → PostReply} {route : ParseRoute}
  {document_id default_text : String}

/-- What the adapters of the names give, from the `n`-th reply on. -/
def outcomes (env : Env) (registry : Registry) (post_json : Nat → PostReply) (args : ParseArgs)
    (n : Nat) (names : List String) : List (Except PyErr PyDict) :=
  ((names.filterMap registry.get?).zipIdx n).map fun tried => tried.1.parse env (post_json tried.2) args

/-- The loop of the source is the chain over what the adapters give. -/
theorem try_candidates_tries (attempts n : Nat) (last : Option ApiError) (names : List String) :
    try_candidates env registry post_json args attempts n last names =
      tryAll caught (fallback_exhausted attempts) last (outcomes env registry post_json args n names) := by
  induction names generalizing n last with
  | nil => rfl
  | cons parser_name rest ih =>
    unfold try_candidates outcomes
    rcases hadapter : registry.get? parser_name with _ | adapter
    · rw [List.filterMap_cons_none hadapter]
      exact ih n last
    · rw [List.filterMap_cons_some hadapter, List.zipIdx_cons, List.map_cons]
      dsimp only
      rcases adapter.parse env (post_json n) args with e | chunk
      · cases e with
        | api e => exact ih (n + 1) (some e)
        | _ => rfl
      · rfl

/-- The parse job runs the same chain, where its draws are the posts. -/
theorem parse_candidates_tries {attempts : Nat} {last : Option ApiError} {names : List String}
    (hadapter : ∀ name, env.adapter name =
      (registry.get? name).map fun adapter n => adapter.parse env (post_json n) args) (w : World) :
    (store_parse.parse_candidates env attempts (last.map ApiError.code) names).result w =
      try_candidates env registry post_json args attempts w.draws last names := by
  induction names generalizing last w with
  | nil =>
    unfold store_parse.parse_candidates try_candidates
    cases last <;> rfl
  | cons parser_name rest ih =>
    unfold store_parse.parse_candidates try_candidates
    rw [hadapter]
    rcases registry.get? parser_name with _ | adapter
    · exact ih w
    · change (draw >>= _).result w = _
      rw [result_bind rfl]
      dsimp only
      rcases adapter.parse env (post_json w.draws) args with e | chunk
      · cases e with
        | api e => exact @ih (some e) _
        | _ => rfl
      · rfl

/-- The registered candidates, in the order in which the chain tries them. -/
def tries (registry : Registry) (route : ParseRoute) : List HttpParserAdapter :=
  (candidates_of route).filterMap registry.get?

/-- The `n`-th registered candidate is `adapter`, and no candidate before it
has a usable answer. -/
structure ReachedAdapter (env : Env) (registry : Registry) (post_json : Nat → PostReply)
    (route : ParseRoute) (n : Nat) (adapter : HttpParserAdapter) : Prop where
  candidate : (tries registry route)[n]? = some adapter
  none_before : ∀ m < n, ∀ earlier, (tries registry route)[m]? = some earlier →
    ¬Usable env earlier (post_json m)

/-- The chunk of the first candidate with a usable answer, or one error when
no candidate has any. -/
structure FirstUsable (env : Env) (registry : Registry) (post_json : Nat → PostReply)
    (route : ParseRoute) (document_id default_text : String) (result : Except PyErr PyDict) :
    Prop where
  used : ∀ n adapter, ReachedAdapter env registry post_json route n adapter →
    Usable env adapter (post_json n) → ∃ chunk, result = .ok chunk ∧
      adapter.parse env (post_json n) ⟨document_id, default_text, route.parser_version⟩ = .ok chunk
  exhausted : (∀ n adapter, (tries registry route)[n]? = some adapter →
    ¬Usable env adapter (post_json n)) →
    ∃ last, result = .error (fallback_exhausted (candidates_of route).length last)

theorem outcome_iff {n : Nat} {outcome : Except PyErr PyDict} :
    (outcomes env registry post_json args 0 (candidates_of route))[n]? = some outcome ↔
      ∃ adapter, (tries registry route)[n]? = some adapter ∧
        adapter.parse env (post_json n) args = outcome := by
  unfold outcomes tries
  rw [List.getElem?_map, List.getElem?_zipIdx, Nat.zero_add]
  simp

theorem reached_iff {n : Nat} :
    Reached (outcomes env registry post_json args 0 (candidates_of route)) n ↔
      ∀ m < n, ∀ earlier, (tries registry route)[m]? = some earlier →
        ¬Usable env earlier (post_json m) := by
  constructor
  · intro h m hm earlier hearlier husable
    obtain ⟨chunk, hchunk⟩ := (@parse_yields env earlier (post_json m) args).2 husable
    exact h m hm chunk (outcome_iff.2 ⟨earlier, hearlier, hchunk⟩)
  · intro h m hm chunk hchunk
    obtain ⟨earlier, hearlier, hparse⟩ := outcome_iff.1 hchunk
    exact h m hm earlier hearlier (parse_yields.1 ⟨chunk, hparse⟩)

/-- The law of the chain is the law of the outcomes. -/
theorem first_usable_iff {result : Except PyErr PyDict} :
    FirstUsable env registry post_json route document_id default_text result ↔
      FirstWorks (fallback_exhausted (candidates_of route).length)
        (outcomes env registry post_json ⟨document_id, default_text, route.parser_version⟩ 0
          (candidates_of route)) result := by
  constructor
  · intro h
    constructor
    · intro n chunk hchunk hreached
      obtain ⟨adapter, hadapter, hparse⟩ := outcome_iff.1 hchunk
      obtain ⟨chunk', hresult, hparse'⟩ := h.used n adapter ⟨hadapter, reached_iff.1 hreached⟩
        (parse_yields.1 ⟨chunk, hparse⟩)
      rw [hparse] at hparse'
      cases hparse'
      exact hresult
    · intro hnone
      have hunusable : ∀ n adapter, (tries registry route)[n]? = some adapter →
          ¬Usable env adapter (post_json n) := by
        intro n adapter hadapter husable
        obtain ⟨chunk, hchunk⟩ := parse_yields.2 husable
        exact hnone n chunk (outcome_iff.2 ⟨adapter, hadapter, hchunk⟩)
      exact h.exhausted hunusable
  · intro h
    constructor
    · intro n adapter hreached husable
      obtain ⟨chunk, hchunk⟩ := parse_yields.2 husable
      exact ⟨chunk, h.first n chunk (outcome_iff.2 ⟨adapter, hreached.candidate, hchunk⟩)
        (reached_iff.2 hreached.none_before), hchunk⟩
    · intro hunusable
      have hnone : NoValue (outcomes env registry post_json
          ⟨document_id, default_text, route.parser_version⟩ 0 (candidates_of route)) := by
        intro n chunk hchunk
        obtain ⟨adapter, hadapter, hparse⟩ := outcome_iff.1 hchunk
        exact hunusable n adapter hadapter (parse_yields.1 ⟨chunk, hparse⟩)
      exact h.exhausted hnone

theorem contained_iff : Contained caught (outcomes env registry post_json args 0 (candidates_of route)) ↔
    ∀ n adapter, ReachedAdapter env registry post_json route n adapter →
      Clean env adapter (post_json n) := by
  constructor
  · intro h n adapter hreached
    apply (@parse_caught env adapter (post_json n) args).1
    intro e he
    rw [← caught_iff]
    exact h n e (outcome_iff.2 ⟨adapter, hreached.candidate, he⟩) (reached_iff.2 hreached.none_before)
  · intro h n e he hreached
    obtain ⟨adapter, hadapter, hparse⟩ := outcome_iff.1 he
    rw [caught_iff]
    exact parse_caught.2 (h n adapter ⟨hadapter, reached_iff.1 hreached⟩) e hparse

/-- Two parsers with an endpoint. -/
def two_parsers : Registry :=
  (Dict.empty.set "mineru" (.init "mineru" "parsed" "http://mineru" "v0")).set "ocr"
    (.init "ocr" "parsed" "http://ocr" "v0")

def mineru_then_ocr : ParseRoute := ⟨"mineru", ["ocr"], "v0"⟩

/-- The first answer has a page that is no number, the second is fine. -/
def page_of_text : Nat → PostReply
  | 0 => .answered (.dict [("chunks", .list [.dict [("page", .str "three")]])])
  | _ => .answered (.dict [("full_md", .str "text")])

end bid_evaluation.fallback_laws
