-- Where the object storage puts the objects of a tenant. The parts of a key
-- are cleaned one by one, but a part can still be "..", and two texts can be
-- cleaned to one.
import BidEvaluation.BlobPlaces
import Mathlib.Data.List.TakeWhile

open file_tree bid_evaluation.values bid_evaluation.object_storage bid_evaluation.worm_laws
  bid_evaluation.blob_places

namespace bid_evaluation.tenant_folders

/-! ## Texts that are cleaned to one segment -/

/-- `r` is written as one underscore before `rest`: it is one already, or it is
a whole run of other characters. -/
inductive ReadsUnderscore : List Char → List Char → Prop where
  | underscore (rest : List Char) : ReadsUnderscore ['_'] rest
  | run {r rest : List Char} (hne : r ≠ []) (hother : ∀ c ∈ r, is_segment_char c = false)
      (hwhole : ∀ c ∈ rest.head?, is_segment_char c = true) : ReadsUnderscore r rest

/-- The texts agree but for the parts that are written as underscores. -/
inductive LookAlike : List Char → List Char → Prop where
  | nil : LookAlike [] []
  | kept {c : Char} {a b : List Char} (hc : is_segment_char c = true) (h : LookAlike a b) :
      LookAlike (c :: a) (c :: b)
  | blurred {r r' a b : List Char} (hr : ReadsUnderscore r a) (hr' : ReadsUnderscore r' b)
      (h : LookAlike a b) : LookAlike (r ++ a) (r' ++ b)

theorem squeeze_kept {c : Char} {l : List Char} (hc : is_segment_char c = true) :
    squeeze (c :: l) = c :: squeeze l := by
  conv_lhs => unfold squeeze
  rw [if_pos hc]

theorem squeeze_other {c d : Char} {l : List Char} (hc : is_segment_char c = false) :
    squeeze (c :: d :: l) =
      if is_segment_char d then '_' :: squeeze (d :: l) else squeeze (d :: l) := by
  conv_lhs => unfold squeeze
  rw [if_neg (by simp [hc])]

theorem ReadsUnderscore.squeeze {r rest : List Char} (h : ReadsUnderscore r rest) :
    squeeze (r ++ rest) = '_' :: squeeze rest := by
  cases h with
  | underscore => exact squeeze_kept (by decide)
  | run hne hother hwhole =>
    induction r with
    | nil => exact absurd rfl hne
    | cons c r ih =>
      have hc := hother c List.mem_cons_self
      rcases r with _ | ⟨d, r⟩
      · rcases rest with _ | ⟨e, rest⟩
        · unfold object_storage.squeeze
          exact if_neg (by simp [hc])
        · exact (squeeze_other hc).trans (if_pos (hwhole e rfl))
      · have hd := hother d (List.mem_cons_of_mem _ List.mem_cons_self)
        refine ((squeeze_other hc).trans (if_neg (by simp [hd]))).trans ?_
        exact ih (List.cons_ne_nil d r) fun x hx => hother x (List.mem_cons_of_mem _ hx)

/-- The first character of a cleaned text, and what of the text it stands
for. -/
theorem squeeze_start {l : List Char} (h : l ≠ []) :
    ∃ c r rest, l = r ++ rest ∧ r ≠ [] ∧ squeeze l = c :: squeeze rest ∧
      (r = [c] ∧ is_segment_char c = true ∧ c ≠ '_' ∨ c = '_' ∧ ReadsUnderscore r rest) := by
  obtain ⟨c, l, rfl⟩ := List.exists_cons_of_ne_nil h
  by_cases hc : is_segment_char c = true
  · have hkept : squeeze (c :: l) = c :: squeeze l := squeeze_kept hc
    refine ⟨c, [c], l, rfl, List.cons_ne_nil c [], hkept, ?_⟩
    by_cases hunder : c = '_'
    · exact .inr ⟨hunder, hunder ▸ .underscore l⟩
    · exact .inl ⟨rfl, hc, hunder⟩
  · have hsplit := List.takeWhile_append_dropWhile (p := fun d => !is_segment_char d) (l := c :: l)
    have hne : (c :: l).takeWhile (fun d => !is_segment_char d) ≠ [] := by
      rw [List.takeWhile_cons_of_pos (by simp [hc])]
      exact List.cons_ne_nil _ _
    have hreads : ReadsUnderscore ((c :: l).takeWhile fun d => !is_segment_char d)
        ((c :: l).dropWhile fun d => !is_segment_char d) := by
      refine .run hne (fun d hd => ?_) fun d hd => ?_
      · simpa using List.mem_takeWhile_imp hd
      · have hhead := List.head?_dropWhile_not (fun d => !is_segment_char d) (c :: l)
        rw [Option.mem_def.1 hd] at hhead
        simpa using hhead
    refine ⟨'_', _, _, hsplit.symm, hne, ?_, .inr ⟨rfl, hreads⟩⟩
    rw [← hreads.squeeze, hsplit]

theorem squeeze_nil_iff {l : List Char} : squeeze l = [] ↔ l = [] := by
  constructor
  · intro h
    by_contra hne
    obtain ⟨c, r, rest, -, -, hsqueeze, -⟩ := squeeze_start hne
    rw [h] at hsqueeze
    cases hsqueeze
  · rintro rfl
    rfl

/-- Texts are cleaned to one exactly if they look alike. -/
theorem squeeze_eq_iff {a b : List Char} : squeeze a = squeeze b ↔ LookAlike a b := by
  constructor
  · intro h
    -- On the length of the first text: each round takes a start off both.
    induction hn : a.length using Nat.strong_induction_on generalizing a b with
    | _ n ih =>
      by_cases ha : a = []
      · subst ha
        rw [show squeeze [] = [] from rfl] at h
        rw [squeeze_nil_iff.1 h.symm]
        exact .nil
      · have hb : b ≠ [] := fun hb => ha (squeeze_nil_iff.1 (h.trans (squeeze_nil_iff.2 hb)))
        obtain ⟨c, r, rest, rfl, hr, hsqueeze, hstart⟩ := squeeze_start ha
        obtain ⟨c', r', rest', rfl, -, hsqueeze', hstart'⟩ := squeeze_start hb
        rw [hsqueeze, hsqueeze'] at h
        obtain ⟨rfl, hrest⟩ := List.cons.inj h
        have hlength := List.length_pos_of_ne_nil hr
        have halike := ih rest.length (by rw [← hn, List.length_append]; omega) hrest rfl
        rcases hstart with ⟨rfl, hc, hne⟩ | ⟨rfl, hreads⟩ <;>
          rcases hstart' with ⟨rfl, hc', hne'⟩ | ⟨hc', hreads'⟩
        · exact .kept hc halike
        · exact absurd hc' hne
        · exact absurd rfl hne'
        · exact .blurred hreads hreads' halike
  · intro h
    induction h with
    | nil => rfl
    | kept hc h ih => rw [squeeze_kept hc, squeeze_kept hc, ih]
    | blurred hr hr' h ih => rw [hr.squeeze, hr'.squeeze, ih]

/-- The text of a part that is cleaned. A blank one counts as "object". -/
def shown (value : String) : List Char :=
  if strip value = "" then "object".toList else (strip value).toList

theorem clean_segment_shown (value : String) :
    clean_segment value = String.ofList (squeeze (shown value)) := by
  unfold clean_segment shown
  dsimp only
  by_cases hblank : strip value = ""
  · rw [if_pos hblank, hblank]
    decide
  · have hne : ¬ String.ofList (squeeze (strip value).toList) = "" := by
      intro h
      have htext := congrArg String.toList h
      rw [String.toList_ofList] at htext
      exact hblank (String.toList_injective (squeeze_nil_iff.1 htext))
    rw [if_neg hblank, if_neg hne]

theorem clean_segment_eq_iff {a b : String} :
    clean_segment a = clean_segment b ↔ LookAlike (shown a) (shown b) := by
  rw [clean_segment_shown, clean_segment_shown, String.ofList_inj, squeeze_eq_iff]

/-- A character that is not kept leaves an underscore. -/
theorem underscore_mem {l : List Char} {c : Char} (hin : c ∈ l) (hc : is_segment_char c = false) :
    '_' ∈ squeeze l := by
  induction hn : l.length using Nat.strong_induction_on generalizing l with
  | _ n ih =>
    obtain ⟨d, r, rest, rfl, hr, hsqueeze, hstart⟩ := squeeze_start (List.ne_nil_of_mem hin)
    have hlength := List.length_pos_of_ne_nil hr
    rw [hsqueeze]
    rcases hstart with ⟨rfl, hd, -⟩ | ⟨rfl, -⟩
    · rcases List.mem_cons.1 hin with rfl | hrest
      · rw [hd] at hc
        cases hc
      · exact List.mem_cons_of_mem _ (ih rest.length (by rw [← hn]; exact Nat.lt_succ_self _) hrest rfl)
    · exact List.mem_cons_self

/-- The words of a key that are no such text come from themselves alone. -/
theorem clean_segment_word {value word : String} (hword : Segment word) (hobject : word ≠ "object")
    (hunder : '_' ∉ word.toList) : clean_segment value = word ↔ strip value = word := by
  constructor
  · intro h
    unfold clean_segment at h
    dsimp only at h
    split at h
    · exact absurd h.symm hobject
    · have htext := congrArg String.toList h
      rw [String.toList_ofList] at htext
      have hplain : ∀ c ∈ (strip value).toList, is_segment_char c = true := by
        intro c hc
        by_contra hother
        exact hunder (htext ▸ underscore_mem hc (by simpa using hother))
      rw [squeeze_eq hplain] at htext
      exact String.toList_injective htext
  · intro h
    unfold clean_segment
    dsimp only
    rw [h, squeeze_eq hword.plain, String.ofList_toList, if_neg hword.nonempty]

/-! ## Paths of keys -/

variable {β : Type}

/-- The names of an object's path below the directory of its tenant. -/
def folder_names (object_type object_id filename : String) : List String :=
  if object_type = "document" then ["documents", object_id, "raw", filename]
  else if object_type = "report" then ["reports", object_id, filename]
  else [object_type, object_id, filename]

/-- The directory above those of the tenants. -/
def tenants_path (storage : LocalObjectStorage β) : Path :=
  path_for_key storage
    (if storage.key_prefix = "" then "tenants" else storage.key_prefix ++ "/" ++ "tenants")

/-- The names that count: a dot stands for nothing. -/
def without_dots (names : List String) : List String := names.filter (· ≠ ".")

theorem append_four (start slash tenant folder id file : String) :
    start ++ slash ++ tenant ++ slash ++ folder ++ slash ++ id ++ slash ++ file =
      start ++ slash ++ (tenant ++ slash ++ (folder ++ slash ++ (id ++ slash ++ file))) := by
  simp only [String.append_assoc]

theorem path_names_without_dots {s : String} (h : Segment s) :
    path_names s.toList = without_dots [s] := by
  rw [path_names_segment h, without_dots]
  by_cases hdot : s = "."
  · simp [hdot]
  · simp [hdot]

theorem join_slash (base : Path) {a : String} (b : String) (ha : a ≠ "") :
    join base (a ++ "/" ++ b).toList = join base a.toList ++ path_names b.toList := by
  have hne : a.toList ≠ [] := fun h => ha (String.toList_injective h)
  have hhead : (a ++ "/" ++ b).toList.head? = a.toList.head? := by
    rw [String.append_assoc, String.toList_append, List.head?_append_of_ne_nil _ hne]
  rw [join, join, hhead, path_names_slash]
  split
  · rfl
  · rw [List.append_assoc]

/-- What a key is, below the directory of all tenants. -/
theorem path_for_tenant_key (storage : LocalObjectStorage β) (names : String) :
    path_for_key storage (if storage.key_prefix = "" then "tenants" ++ "/" ++ names
      else storage.key_prefix ++ "/" ++ ("tenants" ++ "/" ++ names)) =
        tenants_path storage ++ path_names names.toList := by
  have htenants : "tenants" ≠ "" := by decide
  unfold tenants_path path_for_key
  split
  · exact join_slash _ names htenants
  · have hne : storage.key_prefix ++ "/" ++ "tenants" ≠ "" := by
      intro h
      have hlength := congrArg String.length h
      rw [String.length_append, show "tenants".length = 7 from rfl] at hlength
      exact absurd hlength (Nat.succ_ne_zero _)
    rw [← join_slash _ names hne]
    simp only [String.append_assoc]

theorem path_of_key (storage : LocalObjectStorage β) (args : PutArgs β) :
    path_for_key storage (key_of storage args) = tenants_path storage ++
      without_dots (clean_segment args.tenant_id :: folder_names (clean_segment args.object_type)
        (clean_segment args.object_id) (clean_segment args.filename)) := by
  have hstart : "tenants/" = "tenants" ++ "/" := by decide
  have hdocs : "/documents/" = "/" ++ ("documents" ++ "/") := by decide
  have hraw : "/raw/" = "/" ++ ("raw" ++ "/") := by decide
  have hreports : "/reports/" = "/" ++ ("reports" ++ "/") := by decide
  have hwords : path_names "documents".toList = without_dots ["documents"] ∧
      path_names "raw".toList = without_dots ["raw"] ∧
      path_names "reports".toList = without_dots ["reports"] :=
    ⟨path_names_without_dots ⟨by decide, by decide⟩, path_names_without_dots ⟨by decide, by decide⟩,
      path_names_without_dots ⟨by decide, by decide⟩⟩
  have htenant := path_names_without_dots (segment_clean args.tenant_id)
  have htype := path_names_without_dots (segment_clean args.object_type)
  have hid := path_names_without_dots (segment_clean args.object_id)
  have hfile := path_names_without_dots (segment_clean args.filename)
  unfold key_of build_key folder_names
  dsimp only
  generalize clean_segment args.tenant_id = tenant at *
  generalize clean_segment args.object_type = object_type at *
  generalize clean_segment args.object_id = object_id at *
  generalize clean_segment args.filename = filename at *
  by_cases hdocument : object_type = "document"
  · rw [if_pos hdocument, if_pos hdocument, hstart, hdocs, hraw, append_six, path_for_tenant_key,
      path_names_slash, path_names_slash, path_names_slash, path_names_slash, htenant, hid, hfile,
      hwords.1, hwords.2.1]
    simp only [without_dots, ← List.filter_append, List.singleton_append]
  · rw [if_neg hdocument, if_neg hdocument]
    by_cases hreport : object_type = "report"
    · rw [if_pos hreport, if_pos hreport, hstart, hreports, append_five, path_for_tenant_key,
        path_names_slash, path_names_slash, path_names_slash, htenant, hid, hfile, hwords.2.2]
      simp only [without_dots, ← List.filter_append, List.singleton_append]
    · rw [if_neg hreport, if_neg hreport, hstart, append_four, path_for_tenant_key,
        path_names_slash, path_names_slash, path_names_slash, htenant, htype, hid, hfile]
      simp only [without_dots, ← List.filter_append, List.singleton_append]

/-! ## The directory of a tenant -/

/-- The directory that the layout of the keys gives a tenant. -/
def own_directory (storage : LocalObjectStorage β) (tenant_id : String) : Place :=
  placeOf (tenants_path storage) ++ [clean_segment tenant_id]

/-- The path of a put leads below the directory of its tenant. -/
def InOwnDirectory (storage : LocalObjectStorage β) (args : PutArgs β) : Prop :=
  ∃ rest, rest ≠ [] ∧ placeOf (path_for_key storage (key_of storage args)) =
    own_directory storage args.tenant_id ++ rest

/-- The two tenants share neither a directory nor a key. -/
def Apart (storage : LocalObjectStorage β) (tenant_id other : String) : Prop :=
  own_directory storage tenant_id ≠ own_directory storage other ∧
    ∀ args args' : PutArgs β, args.tenant_id = tenant_id → args'.tenant_id = other →
      key_of storage args ≠ key_of storage args'

/-- No dots lead out of the directory of the tenant, or they lead out by the
type and back in by an id that looks like the tenant. -/
def StaysInside (args : PutArgs β) : Prop :=
  strip args.tenant_id ≠ "." ∧ strip args.tenant_id ≠ ".." ∧
    (StaysBelow 0 (without_dots (folder_names (strip args.object_type) (strip args.object_id)
        (strip args.filename))) ∨
      strip args.object_type = ".." ∧ LookAlike (shown args.object_id) (shown args.tenant_id) ∧
        strip args.filename ≠ "." ∧ strip args.filename ≠ "..")

/-- The two texts of a name are dots together. -/
def SameDots (a b : String) : Prop := (a = "." ↔ b = ".") ∧ (a = ".." ↔ b = "..")

theorem stays_below_congr {names names' : List String} (h : List.Forall₂ SameDots names names')
    (n : Nat) : StaysBelow n (without_dots names) ↔ StaysBelow n (without_dots names') := by
  induction h generalizing n with
  | nil => rfl
  | @cons a b rest rest' hab _ ih =>
    unfold without_dots at ih ⊢
    by_cases hdot : a = "."
    · rw [List.filter_cons_of_neg (by simp [hdot]), List.filter_cons_of_neg (by simp [hab.1.1 hdot])]
      exact ih n
    · have hdot' : ¬ b = "." := fun hb => hdot (hab.1.2 hb)
      rw [List.filter_cons_of_pos (by simp [hdot]), List.filter_cons_of_pos (by simp [hdot']),
        StaysBelow, StaysBelow]
      by_cases hup : a = ".."
      · rw [if_pos hup, if_pos (hab.2.1 hup), ih]
      · rw [if_neg hup, if_neg fun hb => hup (hab.2.2 hb), ih]

theorem same_dots (value : String) : SameDots (clean_segment value) (strip value) :=
  ⟨clean_segment_word ⟨by decide, by decide⟩ (by decide) (by decide),
    clean_segment_word ⟨by decide, by decide⟩ (by decide) (by decide)⟩

/-- Whether the dots lead out is told by the texts before they are cleaned. -/
theorem stays_below_cleaned (args : PutArgs β) :
    StaysBelow 0 (without_dots (folder_names (clean_segment args.object_type)
      (clean_segment args.object_id) (clean_segment args.filename))) ↔
    StaysBelow 0 (without_dots (folder_names (strip args.object_type) (strip args.object_id)
      (strip args.filename))) := by
  have hrefl : ∀ word : String, SameDots word word := fun word => ⟨Iff.rfl, Iff.rfl⟩
  have hdocument : clean_segment args.object_type = "document" ↔
      strip args.object_type = "document" :=
    clean_segment_word ⟨by decide, by decide⟩ (by decide) (by decide)
  have hreport : clean_segment args.object_type = "report" ↔ strip args.object_type = "report" :=
    clean_segment_word ⟨by decide, by decide⟩ (by decide) (by decide)
  refine stays_below_congr ?_ 0
  unfold folder_names
  simp only [hdocument, hreport]
  split
  · exact .cons (hrefl _) (.cons (same_dots _) (.cons (hrefl _) (.cons (same_dots _) .nil)))
  · split
    · exact .cons (hrefl _) (.cons (same_dots _) (.cons (same_dots _) .nil))
    · exact .cons (same_dots _) (.cons (same_dots _) (.cons (same_dots _) .nil))

theorem enter_down {here : Place} {name : String} (h : name ≠ "..") :
    enter here name = here ++ [name] := if_neg h

/-- Two names lead down from a place only if none of them goes up. -/
theorem two_down {top rest : Place} {tenant a b : String} (hrest : rest ≠ [])
    (h : [a, b].foldl enter top = top ++ [tenant] ++ rest) : a = tenant ∧ b ≠ ".." := by
  have hlong := congrArg List.length h
  have hpos := List.length_pos_of_ne_nil hrest
  simp only [List.length_append, List.length_singleton, List.foldl_cons, List.foldl_nil] at hlong
  have hstep : ∀ (here : Place) (name : String), (enter here name).length ≤ here.length + 1 :=
    fun here name => walk_length here [name]
  have hup : ∀ here : Place, (enter here "..").length = here.length - 1 := by
    intro here
    rw [enter, if_pos rfl, List.length_dropLast]
  have hfirst := hstep top a
  have ha : a ≠ ".." := by
    rintro rfl
    have hsecond := hstep (enter top "..") b
    rw [hup] at hsecond
    omega
  have hb : b ≠ ".." := by
    rintro rfl
    rw [hup] at hlong
    omega
  rw [List.foldl_cons, List.foldl_cons, List.foldl_nil, enter_down ha, enter_down hb,
    List.append_assoc, List.append_assoc] at h
  exact ⟨(List.cons.inj (List.append_cancel_left h)).1, hb⟩

/-- Three names that go up first, and are all of what is left. -/
theorem all_three {first second third : String} {before after : List String}
    (h : without_dots [first, second, third] = before ++ ".." :: after) (hlong : 2 ≤ after.length) :
    first = ".." ∧ after = [second, third] ∧ third ≠ "." := by
  have hle := List.length_filter_le (fun name : String => decide (name ≠ "."))
    [first, second, third]
  have hlength := congrArg List.length h
  rw [without_dots] at hlength
  simp only [List.length_append, List.length_cons, List.length_nil] at hlength hle
  have hall := List.length_filter_eq_length_iff.1 (show
    ([first, second, third].filter fun name : String => decide (name ≠ ".")).length =
      [first, second, third].length by simp only [List.length_cons, List.length_nil]; omega)
  have hbefore : before = [] := List.eq_nil_of_length_eq_zero (by omega)
  rw [without_dots, List.filter_eq_self.2 hall, hbefore, List.nil_append] at h
  obtain ⟨rfl, rfl⟩ := List.cons.inj h
  exact ⟨rfl, rfl, by simpa using hall third (by simp)⟩

/-- A walk that goes up from the directory comes back only over its name. -/
theorem comes_back {top rest : Place} {tenant object_type object_id filename : String}
    (hout : ¬ StaysBelow 0 (without_dots (folder_names object_type object_id filename)))
    (hrest : rest ≠ [])
    (hplace : (without_dots (folder_names object_type object_id filename)).foldl enter
      (top ++ [tenant]) = top ++ [tenant] ++ rest) :
    object_type = ".." ∧ object_id = tenant ∧ filename ≠ "." ∧ filename ≠ ".." := by
  have hwalk := @walk_out [] _ (top ++ [tenant]) hout
  rw [List.append_nil] at hwalk
  rcases hwalk with hend | ⟨before, after, hnames, hbefore⟩
  · rw [hend] at hplace
    exact absurd (List.self_eq_append_right.1 hplace) hrest
  · rw [hnames, List.foldl_append, hbefore, List.foldl_cons, enter, if_pos rfl,
      List.dropLast_concat] at hplace
    have hlong : 2 ≤ after.length := by
      have hlength := walk_length top after
      have hpos := List.length_pos_of_ne_nil hrest
      rw [hplace, List.length_append, List.length_append, List.length_singleton] at hlength
      omega
    unfold folder_names at hnames
    split at hnames
    · -- The first name goes down, so that too few are left.
      have hwords : "documents" ≠ "." ∧ "documents" ≠ ".." := by decide
      have hle := List.length_filter_le (fun name : String => decide (name ≠ "."))
        [object_id, "raw", filename]
      rw [without_dots, List.filter_cons_of_pos (by simp [hwords.1])] at hnames
      rcases before with _ | ⟨name, before⟩
      · exact absurd (List.cons.inj hnames).1 hwords.2
      · obtain ⟨rfl, htail⟩ := List.cons.inj hnames
        have hlength := (congrArg List.length htail).trans List.length_append
        simp only [List.length_cons, List.length_nil] at hlength hle
        have hnil : before = [] := List.eq_nil_of_length_eq_zero (by omega)
        rw [hnil, List.foldl_cons, List.foldl_nil, enter, if_neg hwords.2] at hbefore
        exact absurd (List.append_right_eq_self.1 hbefore) (List.cons_ne_nil _ _)
    · split at hnames
      · exact absurd (all_three hnames hlong).1 (by decide)
      · obtain ⟨htype, rfl, hdot⟩ := all_three hnames hlong
        obtain ⟨hid, hup⟩ := two_down hrest hplace
        exact ⟨htype, hid, hdot, hup⟩

/-- A put stays in the directory of its tenant exactly if the dots do not
lead out. -/
theorem in_own_directory_iff (storage : LocalObjectStorage β) (args : PutArgs β) :
    InOwnDirectory storage args ↔ StaysInside args := by
  have htenant := same_dots args.tenant_id
  have htype := same_dots args.object_type
  have hfile := same_dots args.filename
  have hbelow := stays_below_cleaned args
  have halike : clean_segment args.object_id = clean_segment args.tenant_id ↔ _ :=
    clean_segment_eq_iff
  unfold InOwnDirectory StaysInside own_directory
  rw [path_of_key, placeOf, List.foldl_append, ← placeOf, ← hbelow, ← halike]
  simp only [ne_eq, ← htenant.1, ← htenant.2, ← htype.2, ← hfile.1, ← hfile.2]
  generalize placeOf (tenants_path storage) = top
  generalize clean_segment args.tenant_id = tenant
  generalize clean_segment args.object_type = object_type
  generalize clean_segment args.object_id = object_id
  generalize clean_segment args.filename = filename
  have hnames : tenant ≠ "." → tenant ≠ ".." →
      (without_dots (tenant :: folder_names object_type object_id filename)).foldl enter top =
        (without_dots (folder_names object_type object_id filename)).foldl enter
          (top ++ [tenant]) := by
    intro hdot hup
    rw [without_dots, List.filter_cons_of_pos (by simp [hdot]), List.foldl_cons, enter, if_neg hup]
    rfl
  constructor
  · rintro ⟨rest, hrest, hplace⟩
    have hname : ((without_dots (tenant :: folder_names object_type object_id filename)).foldl enter
        top)[top.length]? = some tenant := by
      rw [hplace, List.append_assoc, List.getElem?_append_right (Nat.le_refl _), Nat.sub_self]
      rfl
    rcases walk_name hname with ⟨hin, hup⟩ | hbefore
    · have hdot : tenant ≠ "." := by simpa using (List.mem_filter.1 hin).2
      rw [hnames hdot hup] at hplace
      refine ⟨hdot, hup, ?_⟩
      by_cases hstays : StaysBelow 0 (without_dots (folder_names object_type object_id filename))
      · exact .inl hstays
      · exact .inr (comes_back hstays hrest hplace)
    · rw [List.getElem?_eq_none (Nat.le_refl _)] at hbefore
      cases hbefore
  · rintro ⟨hdot, hup, hstays | ⟨rfl, rfl, hfiledot, hfileup⟩⟩
    · have hwalk := @walk_below [] _ (top ++ [tenant]) hstays
      rw [List.append_nil, ← hnames hdot hup] at hwalk
      exact hwalk
    · refine ⟨[filename], List.cons_ne_nil _ _, ?_⟩
      have hother : ¬ ".." = "document" ∧ ¬ ".." = "report" ∧ ".." ≠ "." := by decide
      rw [hnames hdot hup, folder_names, if_neg hother.1, if_neg hother.2.1, without_dots,
        List.filter_eq_self.2 (by simp [hother.2.2, hdot, hfiledot]), List.foldl_cons,
        List.foldl_cons, List.foldl_cons, List.foldl_nil, enter_down hfileup, enter_down hup,
        enter, if_pos rfl, List.dropLast_concat]

/-- A key names its tenant between two slashes. -/
theorem key_start (storage : LocalObjectStorage β) (args : PutArgs β) :
    ∃ rest, (key_of storage args).toList =
      (if storage.key_prefix = "" then "" else storage.key_prefix ++ "/").toList ++
        ("tenants/".toList ++ ((clean_segment args.tenant_id).toList ++ '/' :: rest)) := by
  have hslash : ∀ word : String, word.toList.head? = some '/' →
      ∃ rest, word.toList = '/' :: rest := by
    intro word hhead
    obtain ⟨rest, hrest⟩ := List.head?_eq_some_iff.1 hhead
    exact ⟨rest, hrest⟩
  obtain ⟨documents, hdocuments⟩ := hslash "/documents/" (by decide)
  obtain ⟨reports, hreports⟩ := hslash "/reports/" (by decide)
  obtain ⟨slash, hone⟩ := hslash "/" (by decide)
  have hbase : ∃ rest, (if clean_segment args.object_type = "document" then
        "tenants/" ++ clean_segment args.tenant_id ++ "/documents/" ++ clean_segment args.object_id ++
          "/raw/" ++ clean_segment args.filename
      else if clean_segment args.object_type = "report" then
        "tenants/" ++ clean_segment args.tenant_id ++ "/reports/" ++ clean_segment args.object_id ++
          "/" ++ clean_segment args.filename
      else "tenants/" ++ clean_segment args.tenant_id ++ "/" ++ clean_segment args.object_type ++ "/" ++
        clean_segment args.object_id ++ "/" ++ clean_segment args.filename).toList =
      "tenants/".toList ++ ((clean_segment args.tenant_id).toList ++ '/' :: rest) := by
    generalize "tenants/" = start
    generalize "/documents/" = folder at *
    generalize "/reports/" = folder' at *
    generalize "/" = separator at *
    generalize "/raw/" = raw
    split
    · simp only [String.toList_append, hdocuments, List.append_assoc, List.cons_append,
          List.append_cancel_left_eq, List.cons.injEq, true_and, exists_eq']
    · split
      · simp only [String.toList_append, hreports, List.append_assoc, List.cons_append,
          List.append_cancel_left_eq, List.cons.injEq, true_and, exists_eq']
      · simp only [String.toList_append, hone, List.append_assoc, List.cons_append,
          List.append_cancel_left_eq, List.cons.injEq, true_and, exists_eq']
  obtain ⟨rest, hrest⟩ := hbase
  refine ⟨rest, ?_⟩
  rw [← hrest, ← String.toList_append]
  unfold key_of build_key
  dsimp only
  by_cases hempty : storage.key_prefix = ""
  · rw [if_pos hempty, if_pos hempty, String.empty_append]
  · rw [if_neg hempty, if_neg hempty]

theorem before_slash {a rest : List Char} (h : '/' ∉ a) :
    (a ++ '/' :: rest).takeWhile (· ≠ '/') = a := by
  have hall : ∀ c ∈ a, decide (c ≠ '/') = true := fun c hc =>
    decide_eq_true fun (heq : c = '/') => h (heq ▸ hc)
  rw [List.takeWhile_append_of_pos hall]
  simp

theorem tenant_of_key (storage : LocalObjectStorage β) {args args' : PutArgs β}
    (h : key_of storage args = key_of storage args') :
    clean_segment args.tenant_id = clean_segment args'.tenant_id := by
  have hslash : ∀ value, '/' ∉ (clean_segment value).toList := fun value hin =>
    (segment_char_plain ((segment_clean value).plain '/' hin)).2 rfl
  obtain ⟨rest, hkey⟩ := key_start storage args
  obtain ⟨rest', hkey'⟩ := key_start storage args'
  rw [h, hkey'] at hkey
  have hnames := List.append_cancel_left (List.append_cancel_left hkey)
  have htaken := congrArg (List.takeWhile (· ≠ '/')) hnames
  rw [before_slash (hslash _), before_slash (hslash _)] at htaken
  exact String.toList_injective htaken.symm

/-- Two tenants are apart exactly if their ids do not look alike. -/
theorem apart_iff (storage : LocalObjectStorage β) (tenant_id other : String) :
    Apart storage tenant_id other ↔ ¬ LookAlike (shown tenant_id) (shown other) := by
  rw [← clean_segment_eq_iff]
  constructor
  · rintro ⟨hdirectories, -⟩ hsame
    exact hdirectories (by rw [own_directory, own_directory, hsame])
  · intro hne
    refine ⟨fun hsame => hne ?_, ?_⟩
    · exact List.singleton_inj.1 (List.append_cancel_left hsame)
    · rintro args args' rfl rfl hkey
      exact hne (tenant_of_key storage hkey)

/-- The keys of a tenant stay in its own directory, apart from every other
tenant's, exactly if no dots lead out of it and the ids do not look alike. -/
theorem keys_stay_inside_iff (storage : LocalObjectStorage β) (args : PutArgs β) (other : String) :
    (InOwnDirectory storage args ∧
      (other ≠ args.tenant_id → Apart storage args.tenant_id other)) ↔
    (StaysInside args ∧
      (other ≠ args.tenant_id → ¬ LookAlike (shown args.tenant_id) (shown other))) :=
  and_congr (in_own_directory_iff storage args)
    (imp_congr_right fun _ => apart_iff storage args.tenant_id other)

/-- The tenant ".." puts its documents beside the directory of all tenants, and
"a b" writes where "a_b" does. -/
theorem tenants_leave_and_meet :
    ¬ InOwnDirectory worm_storage { document "bid.pdf" "bid" with tenant_id := ".." } ∧
      placeOf (path_for_key worm_storage (key_of worm_storage
        { document "bid.pdf" "bid" with tenant_id := ".." })) =
          ["tmp", "bea-object-storage", "bea", "documents", "doc_a", "raw", "bid.pdf"] ∧
      ¬ Apart worm_storage "a b" "a_b" := by
  rw [in_own_directory_iff, apart_iff, ← clean_segment_eq_iff]
  exact ⟨fun h => h.2.1 (by decide), by decide +kernel, fun h => h (by decide)⟩

end bid_evaluation.tenant_folders
