-- Where the blobs of documents and reports stand. Each blob has its own
-- folder, named by the id of its object, and the file and the sidecar of the
-- blob are in it, whatever the tenant and the filename are.
import BidEvaluation.WormLaws

open dict_lib file_tree bid_evaluation.values bid_evaluation.object_storage
  bid_evaluation.object_frames bid_evaluation.worm_laws

namespace bid_evaluation.blob_places

variable {β : Type}

/-! ## Segments -/

def is_hex (c : Char) : Bool := c.isDigit || ('a'.toNat ≤ c.toNat && c.toNat ≤ 'f'.toNat)

/-- The text of a digest or of a uuid. -/
def HexText (s : String) : Prop := ∀ c ∈ s.toList, is_hex c = true

theorem isUpper_iff {c : Char} : c.isUpper = true ↔ 65 ≤ c.toNat ∧ c.toNat ≤ 90 := by
  have hranges : c.isUpper = decide (65 ≤ c.toNat ∧ c.toNat ≤ 90) := rfl
  rw [hranges, decide_eq_true_eq]

/-- The codes of the characters of a segment. -/
theorem segment_char_iff {c : Char} : is_segment_char c = true ↔
    ((((65 ≤ c.toNat ∧ c.toNat ≤ 90 ∨ 97 ≤ c.toNat ∧ c.toNat ≤ 122) ∨
      48 ≤ c.toNat ∧ c.toNat ≤ 57) ∨ c = '.') ∨ c = '_') ∨ c = '-' := by
  have hlower : c.isLower = (decide (97 ≤ c.toNat) && decide (c.toNat ≤ 122)) := rfl
  have hdigit : c.isDigit = (decide (48 ≤ c.toNat) && decide (c.toNat ≤ 57)) := rfl
  have hletters : c.isAlphanum = ((c.isUpper || c.isLower) || c.isDigit) := rfl
  unfold is_segment_char
  rw [hletters, hlower, hdigit]
  simp only [Bool.or_eq_true, Bool.and_eq_true, decide_eq_true_eq, isUpper_iff]

theorem segment_char_range {c : Char} (h : is_segment_char c = true) :
    45 ≤ c.toNat ∧ c.toNat ≤ 122 ∧ c.toNat ≠ 47 := by
  rcases segment_char_iff.1 h with ((h | rfl) | rfl) | rfl
  · omega
  · decide
  · decide
  · decide

theorem segment_char_plain {c : Char} (h : is_segment_char c = true) :
    is_space c = false ∧ c ≠ '/' := by
  have hrange := segment_char_range h
  constructor
  · simp [is_space]
    omega
  · rintro rfl
    exact hrange.2.2 rfl

theorem hex_segment {c : Char} (h : is_hex c = true) : is_segment_char c = true ∧ c ≠ '.' := by
  have hrange : 48 ≤ c.toNat ∧ c.toNat ≤ 57 ∨ 97 ≤ c.toNat ∧ c.toNat ≤ 102 := by
    simp only [is_hex, Char.isDigit, Bool.or_eq_true, Bool.and_eq_true, decide_eq_true_eq,
      ge_iff_le, UInt32.le_iff_toNat_le] at h
    exact h
  constructor
  · rw [segment_char_iff]
    omega
  · rintro rfl
    revert hrange
    decide

/-- A text of plain characters, as every cleaned segment is. -/
structure Segment (s : String) : Prop where
  plain : ∀ c ∈ s.toList, is_segment_char c = true
  nonempty : s ≠ ""

theorem squeeze_plain (l : List Char) : ∀ c ∈ squeeze l, is_segment_char c = true := by
  induction l with
  | nil => simp [squeeze]
  | cons c rest ih =>
    unfold squeeze
    split
    · rename_i hc
      intro d hd
      rcases List.mem_cons.1 hd with rfl | hin
      · exact hc
      · exact ih d hin
    · split
      · split
        · intro d hd
          rcases List.mem_cons.1 hd with rfl | hin
          · decide
          · exact ih d hin
        · exact ih
      · intro d hd
        rw [List.mem_singleton] at hd
        subst hd
        decide

theorem segment_clean (value : String) : Segment (clean_segment value) := by
  unfold clean_segment
  dsimp only
  split
  · exact ⟨by decide, by decide⟩
  · rename_i hne
    have htext : (String.ofList (squeeze (strip value).toList)).toList =
        squeeze (strip value).toList := String.toList_ofList
    exact ⟨fun c hc => squeeze_plain _ c (htext ▸ hc), hne⟩

theorem squeeze_eq {l : List Char} (h : ∀ c ∈ l, is_segment_char c = true) : squeeze l = l := by
  induction l with
  | nil => rfl
  | cons c rest ih =>
    unfold squeeze
    rw [if_pos (h c List.mem_cons_self), ih fun d hd => h d (List.mem_cons_of_mem _ hd)]

theorem dropWhile_none {l : List Char} (h : ∀ c ∈ l, is_space c = false) :
    l.dropWhile is_space = l := by
  cases l with
  | nil => rfl
  | cons c rest => rw [List.dropWhile_cons_of_neg (by simp [h c List.mem_cons_self])]

theorem clean_segment_eq {s : String} (h : Segment s) : clean_segment s = s := by
  have hspace : ∀ c ∈ s.toList, is_space c = false := fun c hc =>
    (segment_char_plain (h.plain c hc)).1
  have hstrip : strip s = s := by
    unfold strip
    rw [dropWhile_none hspace, dropWhile_none fun c hc => hspace c (List.mem_reverse.1 hc),
      List.reverse_reverse, String.ofList_toList]
  unfold clean_segment
  dsimp only
  rw [hstrip, squeeze_eq h.plain, String.ofList_toList, if_neg h.nonempty]

/-! ## Names of a path -/

theorem path_names_append (text rest : List Char) :
    path_names (text ++ '/' :: rest) = path_names text ++ path_names rest := by
  unfold path_names
  rw [List.splitOn_append_cons_self, List.map_append, List.filter_append]

/-- A segment is one name, or none when it is a dot. -/
theorem path_names_segment {s : String} (h : Segment s) :
    path_names s.toList = if s = "." then [] else [s] := by
  have hslash : '/' ∉ s.toList := fun hin => (segment_char_plain (h.plain '/' hin)).2 rfl
  unfold path_names
  rw [List.splitOn_eq_singleton hslash, List.map_singleton, String.ofList_toList]
  by_cases hdot : s = "."
  · simp [hdot]
  · simp [hdot, h.nonempty]

/-- An id that stands in a path as one name. -/
structure PlainId (id : String) : Prop extends Segment id where
  not_dot : id ≠ "."
  not_up : id ≠ ".."

def DocumentId (id : String) : Prop := ∃ hex, HexText hex ∧ id = "doc_" ++ hex

def EvaluationId (id : String) : Prop := ∃ hex, HexText hex ∧ id = "ev_" ++ hex

theorem plain_of_start {start hex : String} (hstart : ∀ c ∈ start.toList, is_segment_char c = true)
    (hletter : ∃ c rest, start.toList = c :: rest ∧ c ≠ '.') (h : HexText hex) :
    PlainId (start ++ hex) := by
  obtain ⟨c, rest, hcons, hc⟩ := hletter
  have htext : (start ++ hex).toList = c :: (rest ++ hex.toList) := by
    rw [String.toList_append, hcons, List.cons_append]
  have hne : ∀ {word : String}, word.toList.head? ≠ some c → start ++ hex ≠ word := by
    rintro word hhead rfl
    rw [htext] at hhead
    exact hhead rfl
  refine ⟨⟨fun d hd => ?_, hne (by simp)⟩, hne ?_, hne ?_⟩
  · rw [String.toList_append] at hd
    rcases List.mem_append.1 hd with hin | hin
    · exact hstart d hin
    · exact (hex_segment (h d hin)).1
  · rw [show ".".toList = ['.'] by decide]
    simpa using Ne.symm hc
  · rw [show "..".toList = ['.', '.'] by decide]
    simpa using Ne.symm hc

theorem DocumentId.plain {id : String} (h : DocumentId id) : PlainId id := by
  obtain ⟨hex, hhex, rfl⟩ := h
  exact plain_of_start (by decide) ⟨'d', ['o', 'c', '_'], by decide, by decide⟩ hhex

theorem EvaluationId.plain {id : String} (h : EvaluationId id) : PlainId id := by
  obtain ⟨hex, hhex, rfl⟩ := h
  exact plain_of_start (by decide) ⟨'e', ['v', '_'], by decide, by decide⟩ hhex

/-! ## Folders -/

/-- What stands under the id of a document. -/
inductive DocumentTail : List String → Prop where
  | folder : DocumentTail []
  | raw : DocumentTail ["raw"]
  | sidecar : DocumentTail ["raw.meta.json"]
  | file (name : String) : DocumentTail ["raw", name]

/-- A place in the folder of an object. -/
inductive InFolder : String → String → Place → Prop where
  | document {id : String} (hid : DocumentId id) (above : Place) {tail : List String}
      (htail : DocumentTail tail) : InFolder "document" id (above ++ "documents" :: id :: tail)
  | report {id : String} (hid : EvaluationId id) (above : Place) (name : String) :
      InFolder "report" id (above ++ ["reports", id, name])

theorem start_ne {start hex word : String} (h : ∀ rest, start.toList ++ rest ≠ word.toList) :
    start ++ hex ≠ word := by
  rintro rfl
  exact h hex.toList String.toList_append.symm

theorem document_id_ne {id : String} (h : DocumentId id) :
    id ≠ "raw" ∧ id ≠ "raw.meta.json" ∧ id ≠ "documents" ∧ id ≠ "reports" := by
  obtain ⟨hex, -, rfl⟩ := h
  have hletters : "doc_".toList = ['d', 'o', 'c', '_'] := by decide
  refine ⟨start_ne ?_, start_ne ?_, start_ne ?_, start_ne ?_⟩
  · rw [hletters, show "raw".toList = ['r', 'a', 'w'] by decide]
    simp
  · rw [hletters, show "raw.meta.json".toList = 'r' :: "aw.meta.json".toList by decide]
    simp
  · rw [hletters, show "documents".toList = 'd' :: 'o' :: 'c' :: 'u' :: "ments".toList by decide]
    simp
  · rw [hletters, show "reports".toList = 'r' :: "eports".toList by decide]
    simp

theorem evaluation_id_ne {id : String} (h : EvaluationId id) :
    id ≠ "raw" ∧ id ≠ "documents" ∧ ∀ other, DocumentId other → id ≠ other := by
  obtain ⟨hex, -, rfl⟩ := h
  have hletters : "ev_".toList = ['e', 'v', '_'] := by decide
  refine ⟨start_ne ?_, start_ne ?_, ?_⟩
  · rw [hletters, show "raw".toList = ['r', 'a', 'w'] by decide]
    simp
  · rw [hletters, show "documents".toList = 'd' :: "ocuments".toList by decide]
    simp
  · rintro other ⟨hex', -, rfl⟩
    refine start_ne fun rest => ?_
    rw [hletters, String.toList_append, show "doc_".toList = ['d', 'o', 'c', '_'] by decide]
    simp

/-- Read from its end, the place of a document's blob shows the id. -/
theorem document_folder {id id' : String} {above above' tail tail' : List String}
    (hid : DocumentId id) (hid' : DocumentId id') (htail : DocumentTail tail)
    (htail' : DocumentTail tail')
    (h : above ++ "documents" :: id :: tail = above' ++ "documents" :: id' :: tail') : id = id' := by
  obtain ⟨hraw, hside, hdocs, -⟩ := document_id_ne hid
  obtain ⟨hraw', hside', hdocs', -⟩ := document_id_ne hid'
  have hrev := congrArg List.reverse h
  cases htail <;> cases htail' <;> simp at hrev <;> simp_all

theorem document_not_report {id id' name : String} {above above' tail : List String}
    (hid : DocumentId id) (hid' : EvaluationId id') (htail : DocumentTail tail) :
    above ++ "documents" :: id :: tail ≠ above' ++ ["reports", id', name] := by
  intro h
  obtain ⟨hraw, hside, hdocs, hreps⟩ := document_id_ne hid
  obtain ⟨hraw', hdocs', hother⟩ := evaluation_id_ne hid'
  have hrev := congrArg List.reverse h
  cases htail <;> simp at hrev <;> simp_all

/-- A place is in the folder of one object. -/
theorem InFolder.unique {object_type object_type' id id' : String} {p : Place}
    (h : InFolder object_type id p) (h' : InFolder object_type' id' p) :
    object_type = object_type' ∧ id = id' := by
  cases h with
  | document hid above htail =>
    generalize hp : above ++ "documents" :: id :: _ = p at h'
    cases h' with
    | document hid' above' htail' => exact ⟨rfl, document_folder hid hid' htail htail' hp⟩
    | report hid' above' name => exact absurd hp (document_not_report hid hid' htail)
  | report hid above name =>
    generalize hp : above ++ ["reports", id, name] = p at h'
    cases h' with
    | document hid' above' htail' => exact absurd hp.symm (document_not_report hid' hid htail')
    | report hid' above' name' =>
      have hrev := congrArg List.reverse hp
      simp only [List.reverse_append, List.reverse_cons, List.reverse_nil, List.nil_append,
        List.cons_append, List.cons.injEq] at hrev
      exact ⟨rfl, hrev.2.1⟩

/-! ## Keys -/

theorem path_names_slash (a b : String) :
    path_names (a ++ "/" ++ b).toList = path_names a.toList ++ path_names b.toList := by
  have htext : (a ++ "/" ++ b).toList = a.toList ++ '/' :: b.toList := by
    have hslash : "/".toList = ['/'] := by decide
    rw [String.toList_append, String.toList_append, hslash, List.append_assoc]
    rfl
  rw [htext, path_names_append]

theorem path_names_plain {id : String} (h : PlainId id) : path_names id.toList = [id] := by
  rw [path_names_segment h.toSegment, if_neg h.not_dot]

/-- Stated for variables, so that no literal is taken apart. -/
theorem append_six (start slash folder raw tenant id file : String) :
    start ++ slash ++ tenant ++ (slash ++ (folder ++ slash)) ++ id ++ (slash ++ (raw ++ slash)) ++ file =
      start ++ slash ++ (tenant ++ slash ++ (folder ++ slash ++ (id ++ slash ++ (raw ++ slash ++ file)))) := by
  simp only [String.append_assoc]

theorem append_five (start slash folder tenant id file : String) :
    start ++ slash ++ tenant ++ (slash ++ (folder ++ slash)) ++ id ++ slash ++ file =
      start ++ slash ++ (tenant ++ slash ++ (folder ++ slash ++ (id ++ slash ++ file))) := by
  simp only [String.append_assoc]

/-- The key of the storage, after what the settings put in front. -/
theorem names_of_key (storage : LocalObjectStorage β) (base : String) :
    ∃ above, path_names
      (if storage.key_prefix = "" then base else storage.key_prefix ++ "/" ++ base).toList =
        above ++ path_names base.toList := by
  split
  · exact ⟨[], rfl⟩
  · exact ⟨_, path_names_slash _ _⟩

theorem names_of_document_key (storage : LocalObjectStorage β) {id : String} (hid : PlainId id)
    (tenant_id filename : String) :
    ∃ above, path_names (build_key storage tenant_id "document" id filename).toList =
      above ++ ["documents", id, "raw"] ++ path_names (clean_segment filename).toList := by
  have htype : clean_segment "document" = "document" := clean_segment_eq ⟨by decide, by decide⟩
  have hstart : "tenants/" = "tenants" ++ "/" := by decide
  have hfolder : "/documents/" = "/" ++ ("documents" ++ "/") := by decide
  have hraw : "/raw/" = "/" ++ ("raw" ++ "/") := by decide
  have hnames : path_names "documents".toList = ["documents"] ∧ path_names "raw".toList = ["raw"] :=
    ⟨path_names_plain ⟨⟨by decide, by decide⟩, by decide, by decide⟩,
      path_names_plain ⟨⟨by decide, by decide⟩, by decide, by decide⟩⟩
  obtain ⟨above, habove⟩ := names_of_key storage ("tenants/" ++ clean_segment tenant_id ++
    "/documents/" ++ clean_segment id ++ "/raw/" ++ clean_segment filename)
  unfold build_key
  dsimp only
  rw [htype, if_pos rfl, habove, hstart, hfolder, hraw, append_six, path_names_slash,
    path_names_slash, path_names_slash, path_names_slash, path_names_slash,
    clean_segment_eq hid.toSegment, path_names_plain hid, hnames.1, hnames.2]
  exact ⟨above ++ (path_names "tenants".toList ++ path_names (clean_segment tenant_id).toList), by
    simp only [List.append_assoc, List.cons_append, List.nil_append]⟩

theorem names_of_report_key (storage : LocalObjectStorage β) {id : String} (hid : PlainId id)
    (tenant_id filename : String) :
    ∃ above, path_names (build_key storage tenant_id "report" id filename).toList =
      above ++ ["reports", id] ++ path_names (clean_segment filename).toList := by
  have htype : clean_segment "report" = "report" := clean_segment_eq ⟨by decide, by decide⟩
  have hother : ¬ "report" = "document" := by decide
  have hstart : "tenants/" = "tenants" ++ "/" := by decide
  have hfolder : "/reports/" = "/" ++ ("reports" ++ "/") := by decide
  have hnames : path_names "reports".toList = ["reports"] :=
    path_names_plain ⟨⟨by decide, by decide⟩, by decide, by decide⟩
  obtain ⟨above, habove⟩ := names_of_key storage ("tenants/" ++ clean_segment tenant_id ++
    "/reports/" ++ clean_segment id ++ "/" ++ clean_segment filename)
  unfold build_key
  dsimp only
  rw [htype, if_neg hother, if_pos rfl, habove, hstart, hfolder, append_five, path_names_slash,
    path_names_slash, path_names_slash, path_names_slash, clean_segment_eq hid.toSegment,
    path_names_plain hid, hnames]
  exact ⟨above ++ (path_names "tenants".toList ++ path_names (clean_segment tenant_id).toList), by
    simp only [List.append_assoc, List.cons_append, List.nil_append]⟩

/-- An address leads to the names of its key, below some directory. -/
theorem path_of_uri (storage : LocalObjectStorage β) (key : String) :
    ∃ base, path_for_uri storage (uri_for_key storage key) =
      .ok (base ++ path_names key.toList) := by
  have hjoin : ∀ base text, ∃ above, join base text = above ++ path_names text := by
    intro base text
    unfold join
    split
    · exact ⟨[], rfl⟩
    · exact ⟨base, rfl⟩
  by_cases hslash : '/' ∈ storage.bucket.toList
  · obtain ⟨bucket, rest, hbucket, hnot⟩ := List.eq_append_cons_of_mem hslash
    have hpath := path_for_uri_split key hnot
      (show storage.bucket.toList ++ '/' :: key.toList = bucket ++ '/' :: (rest ++ '/' :: key.toList)
        by rw [hbucket, List.append_assoc, List.cons_append])
    obtain ⟨above, habove⟩ := hjoin (join storage.root bucket) (rest ++ '/' :: key.toList)
    rw [path_names_append] at habove
    exact ⟨above ++ path_names rest, by rw [hpath, habove, List.append_assoc]⟩
  · obtain ⟨above, habove⟩ := hjoin (join storage.root storage.bucket.toList) key.toList
    exact ⟨above, by rw [path_for_uri_of_key hslash, path_for_key, habove]⟩

/-! ## Places of a blob -/

theorem placeOf_plain {path : Path} {name : String} (h : name ≠ "..") :
    placeOf (path ++ [name]) = placeOf path ++ [name] := by
  rw [placeOf_concat, enter, if_neg h]

theorem meta_path_concat (path : Path) (name : String) :
    meta_path (path ++ [name]) = path ++ [name ++ ".meta.json"] := by
  unfold meta_path beside
  rw [List.dropLast_concat, List.getLast?_concat, Option.getD_some]

theorem meta_name_ne (name : String) : name ++ ".meta.json" ≠ ".." := by
  intro h
  have hlength := congrArg String.length h
  rw [String.length_append] at hlength
  have hsizes : ".meta.json".length = 10 ∧ "..".length = 2 := ⟨rfl, rfl⟩
  omega

/-- A folder of three names below some directory. -/
theorem placeOf_folder {above : Path} {folder id raw : String} (hfolder : folder ≠ "..")
    (hid : id ≠ "..") (hraw : raw ≠ "..") :
    placeOf (above ++ [folder, id, raw]) = placeOf above ++ [folder, id, raw] := by
  rw [show above ++ [folder, id, raw] = above ++ [folder] ++ [id] ++ [raw] by simp,
    placeOf_plain hraw, placeOf_plain hid, placeOf_plain hfolder]
  simp

/-- The file and the sidecar of a document's blob are in the document's
folder. -/
theorem document_places (storage : LocalObjectStorage β) {id : String} (hid : DocumentId id)
    (tenant_id filename : String) :
    ∀ p ∈ object_places storage (uri_for_key storage
      (build_key storage tenant_id "document" id filename)), InFolder "document" id p := by
  obtain ⟨base, hpath⟩ := path_of_uri storage (build_key storage tenant_id "document" id filename)
  obtain ⟨above, hnames⟩ := names_of_document_key storage hid.plain tenant_id filename
  rw [hnames, path_names_segment (segment_clean filename), ← List.append_assoc,
    ← List.append_assoc] at hpath
  have hup := hid.plain.not_up
  have hwords : "documents" ≠ ".." ∧ "raw" ≠ ".." ∧ "raw" ++ ".meta.json" = "raw.meta.json" := by
    decide
  intro p hp
  rw [object_places, object_paths, hpath] at hp
  dsimp only at hp
  generalize base ++ above = top at hp
  generalize clean_segment filename = name at hp
  by_cases hdot : name = "."
  · rw [if_pos hdot, List.append_nil, List.map_cons, List.map_singleton, List.mem_pair,
      show top ++ ["documents", id, "raw"] = top ++ ["documents", id] ++ ["raw"] by simp,
      meta_path_concat, hwords.2.2, List.append_assoc, List.append_assoc] at hp
    rcases hp with rfl | rfl
    · exact placeOf_folder hwords.1 hup hwords.2.1 ▸ .document hid _ .raw
    · have hsidecar : "raw.meta.json" ≠ ".." := by decide
      exact placeOf_folder hwords.1 hup hsidecar ▸ .document hid _ .sidecar
  · rw [if_neg hdot, List.map_cons, List.map_singleton, List.mem_pair, meta_path_concat] at hp
    rcases hp with rfl | rfl
    · rw [placeOf_concat, placeOf_folder hwords.1 hup hwords.2.1, enter]
      split
      · rw [show placeOf top ++ ["documents", id, "raw"] = placeOf top ++ ["documents", id] ++ ["raw"]
          by simp, List.dropLast_concat]
        exact .document hid _ .folder
      · rw [List.append_assoc]
        exact .document hid _ (.file name)
    · rw [placeOf_plain (meta_name_ne name), placeOf_folder hwords.1 hup hwords.2.1,
        List.append_assoc]
      exact .document hid _ (.file _)

/-- The two places of a report's blob. -/
theorem report_places (storage : LocalObjectStorage β) {id : String} (hid : EvaluationId id)
    (tenant_id : String) {filename : String} (hname : PlainId filename) :
    ∃ above, object_places storage (uri_for_key storage
      (build_key storage tenant_id "report" id filename)) =
        [above ++ ["reports", id, filename], above ++ ["reports", id, filename ++ ".meta.json"]] := by
  obtain ⟨base, hpath⟩ := path_of_uri storage (build_key storage tenant_id "report" id filename)
  obtain ⟨above, hnames⟩ := names_of_report_key storage hid.plain tenant_id filename
  rw [hnames, clean_segment_eq hname.toSegment, path_names_plain hname, ← List.append_assoc,
    ← List.append_assoc] at hpath
  have hfolder : "reports" ≠ ".." := by decide
  rw [object_places, object_paths, hpath]
  dsimp only
  generalize base ++ above = top
  refine ⟨placeOf top, ?_⟩
  rw [List.map_cons, List.map_singleton, meta_path_concat, List.append_assoc, List.append_assoc,
    List.cons_append, List.cons_append, List.nil_append, List.cons_append, List.cons_append,
    List.nil_append, placeOf_folder hfolder hid.plain.not_up hname.not_up,
    placeOf_folder hfolder hid.plain.not_up (meta_name_ne filename)]

theorem report_in_folder (storage : LocalObjectStorage β) {id : String} (hid : EvaluationId id)
    (tenant_id : String) {filename : String} (hname : PlainId filename) :
    ∀ p ∈ object_places storage (uri_for_key storage
      (build_key storage tenant_id "report" id filename)), InFolder "report" id p := by
  obtain ⟨above, hplaces⟩ := report_places storage hid tenant_id hname
  intro p hp
  rw [hplaces, List.mem_pair] at hp
  rcases hp with rfl | rfl
  · exact .report hid _ _
  · exact .report hid _ _

/-- The name of a report has a digest in it. -/
def ReportName (filename : String) : Prop := ∃ digest, HexText digest ∧
  filename = "report-" ++ digest ++ ".json"

theorem ReportName.plain {filename : String} (h : ReportName filename) : PlainId filename := by
  obtain ⟨digest, hdigest, rfl⟩ := h
  have htext : ("report-" ++ digest ++ ".json").toList =
      'r' :: ("eport-".toList ++ digest.toList ++ ".json".toList) := by
    have hstart : "report-".toList = 'r' :: "eport-".toList := by decide
    rw [String.toList_append, String.toList_append, hstart]
    rfl
  have hne : ∀ {word : String}, word.toList.head? ≠ some 'r' →
      "report-" ++ digest ++ ".json" ≠ word := by
    rintro word hhead rfl
    rw [htext] at hhead
    exact hhead rfl
  refine ⟨⟨fun c hc => ?_, hne (by decide)⟩, hne (by decide), hne (by decide)⟩
  have hletters : (∀ c ∈ 'r' :: "eport-".toList, is_segment_char c = true) ∧
      ∀ c ∈ ".json".toList, is_segment_char c = true := by decide
  rw [htext, ← List.cons_append, ← List.cons_append, List.mem_append, List.mem_append] at hc
  rcases hc with (hc | hc) | hc
  · exact hletters.1 c hc
  · exact (hex_segment (hdigest c hc)).1
  · exact hletters.2 c hc

/-- The blob of one report name is no sidecar of another. -/
theorem report_name_ne_sidecar {filename other : String} (h : ReportName filename)
    (hother : ReportName other) : filename ≠ other ++ ".meta.json" := by
  obtain ⟨digest, hdigest, rfl⟩ := h
  obtain ⟨digest', hdigest', rfl⟩ := hother
  intro heq
  have htexts := congrArg String.toList heq
  simp only [String.toList_append, List.append_assoc] at htexts
  have hrest := List.append_cancel_left htexts
  have hdot : ∀ {d : String}, HexText d → ∀ c ∈ d.toList, decide (c ≠ '.') = true := by
    intro d hd c hc
    simpa using (hex_segment (hd c hc)).2
  have hjson : ".json".toList = '.' :: "json".toList := by decide
  have hdrop := congrArg (List.dropWhile (· ≠ '.')) hrest
  rw [List.dropWhile_append_of_pos (hdot hdigest), List.dropWhile_append_of_pos (hdot hdigest')]
    at hdrop
  revert hdrop
  decide

/-- The blobs of two report names share no place. -/
theorem report_places_apart (storage : LocalObjectStorage β) {id : String} (hid : EvaluationId id)
    (tenant_id : String) {filename other : String} (hname : ReportName filename)
    (hother : ReportName other) (hne : filename ≠ other) :
    ∀ p ∈ object_places storage (uri_for_key storage
        (build_key storage tenant_id "report" id filename)),
      p ∉ object_places storage (uri_for_key storage
        (build_key storage tenant_id "report" id other)) := by
  obtain ⟨above, hplaces⟩ := report_places storage hid tenant_id hname.plain
  obtain ⟨above', hplaces'⟩ := report_places storage hid tenant_id hother.plain
  have hlast : ∀ {a a' : List String} {x x' : String},
      a ++ ["reports", id, x] = a' ++ ["reports", id, x'] → x = x' := by
    intro a a' x x' h
    have hrev := congrArg List.reverse h
    simp only [List.reverse_append, List.reverse_cons, List.reverse_nil, List.nil_append,
      List.cons_append, List.cons.injEq] at hrev
    exact hrev.1
  intro p hp hp'
  rw [hplaces, List.mem_pair] at hp
  rw [hplaces', List.mem_pair] at hp'
  rcases hp with rfl | rfl <;> rcases hp' with hp' | hp'
  · exact hne (hlast hp')
  · exact report_name_ne_sidecar hname hother (hlast hp')
  · exact report_name_ne_sidecar hother hname (hlast hp').symm
  · have htexts := congrArg String.toList (hlast hp')
    rw [String.toList_append, String.toList_append] at htexts
    exact hne (String.ext (List.append_cancel_right htexts))

end bid_evaluation.blob_places
