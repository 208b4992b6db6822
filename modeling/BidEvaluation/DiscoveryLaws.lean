-- The laws of the discovery of a content list. The files of a zip have an
-- order, and a file that cannot be used is meant to be passed over.
import BidEvaluation.MineruFiles
import BidEvaluation.Operations

open dict_lib stepwise bid_evaluation.values bid_evaluation.core bid_evaluation.parser_adapters
  bid_evaluation.mineru_chunks bid_evaluation.mineru_files bid_evaluation.operations

namespace bid_evaluation.discovery_laws

variable {env : Env} {json_loads : String → Except PyErr PyVal} {sha256 : String → String}
  {result : ResultOf} {content : List (String × String)} {text : String} {texts : List String}

/-! ## One item -/

/-- Every field of an item that is converted can be. -/
structure ReadsItem (env : Env) (data : PyDict) : Prop where
  page : Yields (page_of_item data)
  box : Yields (normalize_bbox env (box_of_item data) none)
  level : Yields (level_of_item data)

/-- `int` takes no list and no object. -/
def NoNumber : PyVal → Prop
  | .list _ => True
  | .dict _ => True
  | _ => False

/-- The first conversion that fails does so for the type of the value. -/
inductive PassesItem (env : Env) (data : PyDict) : Prop
  | page (h : NoNumber ((PyDict.get data "page_idx").or (.int 0)))
  | box (hpage : Yields (page_of_item data)) (e : PyErr)
      (h : normalize_bbox env (box_of_item data) none = .error e) (hpasses : passes_on e = true)
  | level (hpage : Yields (page_of_item data))
      (hbox : Yields (normalize_bbox env (box_of_item data) none))
      (h : NoNumber (PyDict.get data "text_level"))

/-- The computation raises an error that lets the loop go on. -/
def Passes (r : Except PyErr α) : Prop := ∃ e, r = .error e ∧ passes_on e = true

theorem passes_bind {r : Except PyErr α} {f : α → Except PyErr β} :
    Passes (r >>= f) ↔ Passes r ∨ ∃ a, r = .ok a ∧ Passes (f a) := by
  rcases r with e | a
  · constructor
    · rintro ⟨_, ⟨⟩, hpasses⟩
      exact Or.inl ⟨e, rfl, hpasses⟩
    · rintro (⟨_, ⟨⟩, hpasses⟩ | ⟨a, h, -⟩)
      · exact ⟨e, rfl, hpasses⟩
      · cases h
  · constructor
    · exact fun h => Or.inr ⟨a, rfl, h⟩
    · rintro (⟨e, h, -⟩ | ⟨_, ⟨⟩, h⟩)
      · cases h
      · exact h

theorem not_passes_ok (a : α) : ¬Passes (.ok a) := by
  rintro ⟨e, h, -⟩
  cases h

theorem int_passes {value : PyVal} (hsome : value ≠ .none) : Passes value.toInt ↔ NoNumber value := by
  cases value with
  | none => exact absurd rfl hsome
  | str text =>
    refine iff_of_false ?_ id
    rintro ⟨e, he, hpasses⟩
    unfold PyVal.toInt at he
    dsimp only at he
    split at he
    · cases he
    · cases he
      exact absurd hpasses (by decide)
  | list items => exact iff_of_true ⟨_, rfl, by decide⟩ trivial
  | dict entries => exact iff_of_true ⟨_, rfl, by decide⟩ trivial
  | _ => exact iff_of_false (not_passes_ok _) id

theorem page_passes {data : PyDict} :
    Passes (page_of_item data) ↔ NoNumber ((PyDict.get data "page_idx").or (.int 0)) := by
  apply int_passes
  unfold PyVal.or
  intro h
  split at h
  case isTrue htruthy =>
    rw [h] at htruthy
    cases htruthy
  case isFalse => cases h

theorem level_passes {data : PyDict} :
    Passes (level_of_item data) ↔ NoNumber (PyDict.get data "text_level") := by
  unfold level_of_item
  generalize PyDict.get data "text_level" = value
  have hbind : Passes (value.toInt >>= fun level => pure (some level)) ↔ Passes value.toInt := by
    rw [passes_bind]
    constructor
    · rintro (h | ⟨level, -, h⟩)
      · exact h
      · exact absurd h (not_passes_ok _)
    · exact Or.inl
  cases value with
  | none => exact iff_of_false (not_passes_ok _) id
  | _ => exact hbind.trans (int_passes nofun)

theorem item_yields {data : PyDict} : Yields (item_of_dict env data) ↔ ReadsItem env data := by
  unfold item_of_dict
  simp only [yields_bind]
  constructor
  · rintro ⟨page, hpage, box, hbox, level, hlevel, -⟩
    exact ⟨⟨page, hpage⟩, ⟨box, hbox⟩, ⟨level, hlevel⟩⟩
  · rintro ⟨⟨page, hpage⟩, ⟨box, hbox⟩, ⟨level, hlevel⟩⟩
    exact ⟨page, hpage, box, hbox, level, hlevel, yields_pure _⟩

theorem item_passes {data : PyDict} : Passes (item_of_dict env data) ↔ PassesItem env data := by
  unfold item_of_dict
  rw [passes_bind, page_passes]
  constructor
  · rintro (hpage | ⟨page, hpage, h⟩)
    · exact .page hpage
    · rcases passes_bind.1 h with ⟨e, hbox, hpasses⟩ | ⟨box, hbox, h⟩
      · exact .box ⟨page, hpage⟩ e hbox hpasses
      · rcases passes_bind.1 h with hlevel | ⟨level, -, h⟩
        · exact .level ⟨page, hpage⟩ ⟨box, hbox⟩ (level_passes.1 hlevel)
        · exact absurd h (not_passes_ok _)
  · intro h
    cases h with
    | page h => exact Or.inl h
    | box hpage e h hpasses =>
      obtain ⟨page, hpage⟩ := hpage
      refine Or.inr ⟨page, hpage, ?_⟩
      exact passes_bind.2 (Or.inl ⟨e, h, hpasses⟩)
    | level hpage hbox h =>
      obtain ⟨page, hpage⟩ := hpage
      obtain ⟨box, hbox⟩ := hbox
      refine Or.inr ⟨page, hpage, passes_bind.2 (Or.inr ⟨box, hbox, ?_⟩)⟩
      exact passes_bind.2 (Or.inl (level_passes.2 h))

theorem from_dict_yields {value : PyVal} :
    Yields (from_dict env value) ↔ ∃ data, value = .dict data ∧ ReadsItem env data := by
  cases value with
  | dict data =>
    rw [show from_dict env (.dict data) = item_of_dict env data from rfl, item_yields]
    simp
  | _ => exact iff_of_false (not_yields_error _) (by simp)

theorem from_dict_passes {value : PyVal} :
    Passes (from_dict env value) ↔ ∃ data, value = .dict data ∧ PassesItem env data := by
  cases value with
  | dict data =>
    rw [show from_dict env (.dict data) = item_of_dict env data from rfl, item_passes]
    simp
  | _ =>
    refine iff_of_false ?_ (by simp)
    rintro ⟨e, ⟨⟩, hpasses⟩
    exact absurd hpasses (by decide)

/-! ## One file -/

/-- The file has no JSON, or JSON that is no list, or a list whose first
item that cannot be read has a value of the wrong type. -/
inductive PassedOver (env : Env) (json_loads : String → Except PyErr PyVal) (text : String) : Prop
  | no_json (e : PyErr) (h : json_loads text = .error e) (hpasses : passes_on e = true)
  | no_list (value : PyVal) (h : json_loads text = .ok value) (hno : ∀ data, value ≠ .list data)
  | item (good : List PyVal) (data : PyDict) (rest : List PyVal)
      (h : json_loads text = .ok (.list (good ++ .dict data :: rest)))
      (hgood : ∀ value ∈ good, ∃ data, value = .dict data ∧ ReadsItem env data)
      (hdata : PassesItem env data)

theorem passed_over_iff : PassedOver env json_loads text ↔
    read_list_file env json_loads text = .ok none ∨ Passes (read_list_file env json_loads text) := by
  unfold read_list_file
  rcases hloads : json_loads text with e | value
  · constructor
    · intro h
      cases h with
      | no_json e' h hpasses =>
        rw [hloads] at h
        cases h
        exact Or.inr ⟨e, rfl, hpasses⟩
      | no_list value h => cases hloads.symm.trans h
      | item good data rest h => cases hloads.symm.trans h
    · rintro (h | ⟨e', ⟨⟩, hpasses⟩)
      · cases h
      · exact .no_json e hloads hpasses
  · cases value with
    | list data =>
      change _ ↔ (data.mapM (from_dict env) >>= fun items => pure (some items)) = .ok none ∨
        Passes (data.mapM (from_dict env) >>= fun items => pure (some items))
      constructor
      · intro h
        cases h with
        | no_json e h => cases hloads.symm.trans h
        | no_list value h hno =>
          cases hloads.symm.trans h
          exact absurd rfl (hno data)
        | item good bad rest h hgood hdata =>
          cases hloads.symm.trans h
          obtain ⟨e, he, hpasses⟩ := from_dict_passes.2 ⟨bad, rfl, hdata⟩
          have herror := mapM_error_iff.2 ⟨good, .dict bad, rest, rfl,
            fun value hin => from_dict_yields.2 (hgood value hin), he⟩
          rw [herror]
          exact Or.inr ⟨e, rfl, hpasses⟩
      · intro h
        rcases hitems : data.mapM (from_dict env) with e | items
        · rw [hitems] at h
          obtain ⟨good, bad, rest, rfl, hgood, hbad⟩ := mapM_error_iff.1 hitems
          obtain h | ⟨_, ⟨⟩, hpasses⟩ := h
          · cases h
          · obtain ⟨data, rfl, hdata⟩ := from_dict_passes.1 ⟨e, hbad, hpasses⟩
            exact .item good data rest hloads (fun value hin => from_dict_yields.1 (hgood value hin))
              hdata
        · rw [hitems] at h
          obtain h | h := h
          · cases h
          · exact absurd h (not_passes_ok _)
    | _ => exact iff_of_true (.no_list _ hloads nofun) (Or.inl rfl)

/-! ## All files -/

/-- The texts of the files with a content list, in the order in which they
are read. -/
def list_texts (content : List (String × String)) : List String :=
  (content.filter (fun file => file.1.endsWith "_content_list.json") ++
    content.filter (fun file => file.1.endsWith "context_list.json")).map Prod.snd

def md_texts (content : List (String × String)) : List String :=
  (content.filter (fun file => is_full_md file.1) ++
    content.filter (fun file => file.1.endsWith ".md")).map Prod.snd

inductive Found where
  | content_list (text : String)
  | markdown (text : String)

/-- The files of a zip in the documented order. -/
def discovered (content : List (String × String)) : List Found :=
  (list_texts content).map .content_list ++ (md_texts content).map .markdown

/-- The chunks of one file with a content list. -/
def chunks_of_text (env : Env) (json_loads : String → Except PyErr PyVal) (sha256 : String → String)
    (result : ResultOf) (text : String) : Except PyErr (List PyDict) := do
  match ← read_list_file env json_loads text with
  | some items => raw_list_to_chunks env sha256 result items
  | none => pure []

/-- The first of the files that is not passed over decides. -/
def first_text (env : Env) (json_loads : String → Except PyErr PyVal) :
    List String → Except PyErr (Option (List RawContentItem))
  | [] => pure none
  | text :: rest =>
    match read_list_file env json_loads text with
    | .ok (some items) => pure (some items)
    | .ok none => first_text env json_loads rest
    | .error e => if passes_on e then first_text env json_loads rest else .error e

theorem first_text_cons {rest : List String} : first_text env json_loads (text :: rest) =
    match read_list_file env json_loads text with
    | .ok (some items) => pure (some items)
    | .ok none => first_text env json_loads rest
    | .error e => if passes_on e then first_text env json_loads rest else .error e := rfl

theorem first_list_eq (ending : String) (content : List (String × String)) :
    first_list env json_loads ending content =
      first_text env json_loads ((content.filter fun file => file.1.endsWith ending).map Prod.snd) := by
  induction content with
  | nil => rfl
  | cons file rest ih =>
    obtain ⟨name, text⟩ := file
    unfold first_list
    by_cases hname : name.endsWith ending = true
    · rw [if_pos hname, List.filter_cons_of_pos (by exact hname), List.map_cons, ih]
      rfl
    · rw [if_neg hname, List.filter_cons_of_neg (by exact hname), ih]

theorem first_text_append {before after : List String} :
    first_text env json_loads (before ++ after) = (do
      match ← first_text env json_loads before with
      | some items => pure (some items)
      | none => first_text env json_loads after) := by
  induction before with
  | nil => rfl
  | cons text rest ih =>
    rw [List.cons_append, first_text_cons, first_text_cons]
    rcases read_list_file env json_loads text with e | _ | items
    · dsimp only
      split
      · exact ih
      · rfl
    · exact ih
    · rfl

/-- Both loops of the source are one loop over the files in order. -/
theorem parse_content_list_eq : parse_content_list env json_loads content = (do
    match ← first_text env json_loads (list_texts content) with
    | some items => pure items
    | none => pure []) := by
  unfold parse_content_list list_texts
  rw [List.map_append, first_text_append, first_list_eq, first_list_eq]
  rcases first_text env json_loads _ with e | _ | items
  · rfl
  · rfl
  · rfl

theorem first_text_passed {before after : List String}
    (h : ∀ text ∈ before, PassedOver env json_loads text) :
    first_text env json_loads (before ++ after) = first_text env json_loads after := by
  induction before with
  | nil => rfl
  | cons text rest ih =>
    rw [List.forall_mem_cons] at h
    rw [List.cons_append, ← ih h.2, first_text_cons]
    rcases passed_over_iff.1 h.1 with hnone | ⟨e, he, hpasses⟩
    · rw [hnone]
    · rw [he]
      dsimp only
      rw [if_pos hpasses]

theorem first_text_decides {rest : List String} (h : ¬PassedOver env json_loads text) :
    first_text env json_loads (text :: rest) = read_list_file env json_loads text := by
  rw [passed_over_iff] at h
  rw [first_text_cons]
  rcases hread : read_list_file env json_loads text with e | _ | items
  · dsimp only
    rw [if_neg]
    exact fun hpasses => h (Or.inr ⟨e, hread, hpasses⟩)
  · exact absurd (Or.inl hread) h
  · rfl

/-- The chunks of a zip, where the markdown is left out. -/
theorem chunks_of_content_eq : chunks_of_content env json_loads sha256 result content = (do
    match ← first_text env json_loads (list_texts content) with
    | some items => do
      let chunks ← raw_list_to_chunks env sha256 result items
      pure (chunks, extract_full_md content)
    | none => pure ([], extract_full_md content)) := by
  unfold chunks_of_content
  rw [parse_content_list_eq]
  rcases first_text env json_loads (list_texts content) with e | _ | items
  · rfl
  · rfl
  · rfl

theorem chunks_of_decisive {before after : List String}
    (hsplit : list_texts content = before ++ text :: after)
    (hbefore : ∀ earlier ∈ before, PassedOver env json_loads earlier)
    (htext : ¬PassedOver env json_loads text) :
    chunks_of_content env json_loads sha256 result content = (do
      let chunks ← chunks_of_text env json_loads sha256 result text
      pure (chunks, extract_full_md content)) := by
  rw [chunks_of_content_eq, hsplit, first_text_passed hbefore, first_text_decides htext]
  unfold chunks_of_text
  rcases read_list_file env json_loads text with e | _ | items
  · rfl
  · rfl
  · rfl

theorem chunks_of_nothing (h : ∀ text ∈ list_texts content, PassedOver env json_loads text) :
    chunks_of_content env json_loads sha256 result content = .ok ([], extract_full_md content) := by
  rw [chunks_of_content_eq, ← List.append_nil (list_texts content), first_text_passed h]
  rfl

/-! ## The law -/

/-- The file makes at least one chunk, or it has a text. -/
def Usable (env : Env) (json_loads : String → Except PyErr PyVal) (sha256 : String → String)
    (result : ResultOf) : Found → Prop
  | .content_list text => ∃ chunks, chunks_of_text env json_loads sha256 result text = .ok chunks ∧ chunks ≠ []
  | .markdown text => strip text ≠ ""

/-- The chunks are those of the list, or parts of the text. -/
def TakenFrom (env : Env) (json_loads : String → Except PyErr PyVal) (sha256 : String → String)
    (result : ResultOf) (chunks : List PyDict) : Found → Prop
  | .content_list text => chunks_of_text env json_loads sha256 result text = .ok chunks
  | .markdown text => ∀ chunk ∈ chunks, ∃ part, PyDict.get chunk "text" = .str part ∧
      part.toList <:+: text.toList

/-- The first usable file. -/
structure FirstUsableFile (env : Env) (json_loads : String → Except PyErr PyVal)
    (sha256 : String → String) (result : ResultOf) (content : List (String × String))
    (before : List Found) (file : Found) : Prop where
  found : ∃ after, discovered content = before ++ file :: after
  none_before : ∀ earlier ∈ before, ¬Usable env json_loads sha256 result earlier
  usable : Usable env json_loads sha256 result file

/-- The service ends with the chunks of the first usable file, whatever stands
before it. -/
def FallsThrough {β : Type} (env : Env) (decode : β → String) (json_loads : String → Except PyErr PyVal)
    (sha256 : String → String) (result : ResultOf) (zip : List (ZipEntry β)) : Prop :=
  ∀ before file,
    FirstUsableFile env json_loads sha256 result (extract_zip_content decode zip) before file →
      ∃ chunks full_md, chunks_of_zip env decode json_loads sha256 result zip = .ok (chunks, full_md) ∧
        chunks ≠ [] ∧ TakenFrom env json_loads sha256 result chunks file

theorem usable_decides (h : Usable env json_loads sha256 result (.content_list text)) :
    ¬PassedOver env json_loads text := by
  obtain ⟨chunks, hchunks, hsome⟩ := h
  unfold chunks_of_text at hchunks
  intro hpassed
  rcases passed_over_iff.1 hpassed with hnone | ⟨e, he, -⟩
  · rw [hnone] at hchunks
    cases hchunks
    exact hsome rfl
  · rw [he] at hchunks
    cases hchunks

theorem all_or_first {α : Type} (P : α → Prop) (l : List α) : (∀ a ∈ l, P a) ∨
    ∃ before a after, l = before ++ a :: after ∧ (∀ b ∈ before, P b) ∧ ¬P a := by
  induction l with
  | nil => exact Or.inl (by simp)
  | cons a rest ih =>
    by_cases ha : P a
    · rcases ih with hall | ⟨before, b, after, rfl, hbefore, hb⟩
      · exact Or.inl (List.forall_mem_cons.2 ⟨ha, hall⟩)
      · exact Or.inr ⟨a :: before, b, after, rfl, List.forall_mem_cons.2 ⟨ha, hbefore⟩, hb⟩
    · exact Or.inr ⟨[], a, rest, rfl, by simp, ha⟩

/-- What stands before a content list are content lists. -/
theorem before_content_list {mds : List String} {before after : List Found}
    (h : texts.map Found.content_list ++ mds.map Found.markdown = before ++ .content_list text :: after) :
    ∃ earlier later, before = earlier.map Found.content_list ∧ texts = earlier ++ text :: later := by
  induction texts generalizing before with
  | nil =>
    have hin : Found.content_list text ∈ mds.map Found.markdown := by
      rw [List.map_nil, List.nil_append] at h
      rw [h]
      simp
    obtain ⟨md, -, heq⟩ := List.mem_map.1 hin
    cases heq
  | cons first rest ih =>
    rw [List.map_cons, List.cons_append] at h
    cases before with
    | nil =>
      cases h
      exact ⟨[], rest, rfl, rfl⟩
    | cons b before =>
      injection h with hb h
      obtain ⟨earlier, later, rfl, rfl⟩ := ih h
      exact ⟨first :: earlier, later, by rw [List.map_cons, hb], rfl⟩

/-- All content lists stand before a markdown. -/
theorem before_markdown {mds : List String} {before after : List Found}
    (h : texts.map Found.content_list ++ mds.map Found.markdown = before ++ .markdown text :: after) :
    ∀ earlier ∈ texts, Found.content_list earlier ∈ before := by
  induction texts generalizing before with
  | nil => simp
  | cons first rest ih =>
    rw [List.map_cons, List.cons_append] at h
    cases before with
    | nil => cases h
    | cons b before =>
      injection h with hb h
      rw [← hb, List.forall_mem_cons]
      exact ⟨List.mem_cons_self, fun earlier hin => List.mem_cons_of_mem _ (ih h earlier hin)⟩

/-- The file that decides is usable when the service ends with chunks. -/
theorem decisive_usable {before after : List String} {chunks : List PyDict} {full_md : Option String}
    (hsplit : list_texts content = before ++ text :: after)
    (hbefore : ∀ earlier ∈ before, PassedOver env json_loads earlier)
    (htext : ¬PassedOver env json_loads text) (hsome : chunks ≠ [])
    (hchunks : chunks_of_content env json_loads sha256 result content = .ok (chunks, full_md)) :
    Usable env json_loads sha256 result (.content_list text) := by
  rw [chunks_of_decisive hsplit hbefore htext] at hchunks
  rcases hown : chunks_of_text env json_loads sha256 result text with e | own
  · rw [hown] at hchunks
    cases hchunks
  · rw [hown] at hchunks
    cases hchunks
    exact ⟨chunks, hown, hsome⟩

/-- The JSON of two files. -/
def two_files_json : String → Except PyErr PyVal
  | "[1]" => .ok (.list [.int 1])
  | "[\x7b\"text\":\"Bid\"\x7d]" => .ok (.list [.dict [("text", .str "Bid")]])
  | _ => .error (.raised "JSONDecodeError" "Expecting value")

/-- Two content lists. Their bytes are their texts here. -/
def number_then_bid : List (ZipEntry String) :=
  [⟨"a_content_list.json", "[1]"⟩, ⟨"b_content_list.json", "[\x7b\"text\":\"Bid\"\x7d]"⟩]

def of_document : ResultOf := ⟨"doc_1", "acme", "mineru_official", "v1"⟩

theorem bid_reads : from_dict calm_env (.dict [("text", .str "Bid")]) =
    .ok ⟨"Bid", "text", 0, [0, 0, 1, 1], none, .none, none⟩ := by
  have hbox : normalize_bbox calm_env whole_page none = .ok [0, 0, 1, 1] :=
    normalize_int_box (by decide +kernel) (by decide) (by decide)
  unfold from_dict item_of_dict
  dsimp only
  rw [show page_of_item [("text", .str "Bid")] = .ok 0 from rfl,
    show box_of_item [("text", .str "Bid")] = whole_page from rfl, hbox]
  rfl

end bid_evaluation.discovery_laws
