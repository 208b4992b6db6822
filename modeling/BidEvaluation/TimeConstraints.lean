-- The time constraints of a query, as `constraint_extractor.py` takes them,
-- and the queries in which no part of the text is taken twice.
import BidEvaluation.Lib.DecimalDigits
import BidEvaluation.Lib.Regex
import BidEvaluation.Values

open regex decimal_digits bid_evaluation.values

namespace bid_evaluation.time_constraints

/-! ## The patterns -/

/-- `(\d+)`. -/
def number : Regex Char := .group 1 (.rep isDecimal 1 none)

/-- `\s*`. -/
def spaces : Regex Char := .rep is_space 0 none

/-- `(?:个)?`. -/
def counter : Regex Char := .opt (.word ['个'])

def date_mark : Regex Char := one (fun c => c = '/' ∨ c = '-')

def ISO_DATE_RE : Regex Char :=
  .seq (.group 1 (.rep isDecimal 4 (some 4))) (.seq date_mark
    (.seq (.group 2 (.rep isDecimal 1 (some 2))) (.seq date_mark
      (.group 3 (.rep isDecimal 1 (some 2))))))

def CN_DATE_RE : Regex Char :=
  .seq (.group 1 (.rep isDecimal 4 (some 4))) (.seq (.word ['年'])
    (.seq (.group 2 (.rep isDecimal 1 (some 2))) (.seq (.word ['月'])
      (.opt (.seq (.group 3 (.rep isDecimal 1 (some 2))) (.word ['日']))))))

def duration_units : List (List Char) := [['天'], ['日'], ['周'], ['月'], ['年']]

def DURATION_RE : Regex Char :=
  .seq number (.seq (.seq spaces counter) (.group 2 (words duration_units)))

def deadline_units : List (List Char) := [['工', '作', '日'], ['天'], ['日'], ['月'], ['年']]

/-- `(?:以?内|之内)`. -/
def within_mark : Regex Char := .alt (.seq (.opt (.word ['以'])) (.word ['内'])) (.word ['之', '内'])

def DEADLINE_RE : Regex Char :=
  .seq number (.seq (.seq spaces counter) (.seq (words deadline_units) (.seq spaces within_mark)))

def CN_NUM_MAP : List (List Char × Nat) :=
  [(['一'], 1), (['二'], 2), (['两'], 2), (['三'], 3), (['四'], 4), (['五'], 5), (['六'], 6), (['七'], 7),
    (['八'], 8), (['九'], 9), (['十'], 10)]

def is_cn_num (c : Char) : Bool :=
  c ∈ ['一', '二', '两', '三', '四', '五', '六', '七', '八', '九', '十']

def RELATIVE_TIME_RE : Regex Char :=
  .seq (.word ['近']) (.seq (.group 1 (.alt (.rep isDecimal 1 none) (.rep is_cn_num 1 none)))
    (.seq counter (.group 2 (words [['年'], ['月']]))))

/-! ## The entries -/

inductive TimeKind where
  | iso_date
  | cn_date
  | deadline
  | duration
  | relative_time
deriving DecidableEq

/-- A match that an entry is taken from. -/
structure TimeSource where
  kind : TimeKind
  found : Found
deriving DecidableEq

/-- The durations that lie in no deadline. -/
def durations (query : List Char) : List Found :=
  let seen_deadline_spans := (finditer DEADLINE_RE query).map fun m => (m.start, m.stop)
  (finditer DURATION_RE query).filter fun m =>
    (m.start, m.stop) ∉ seen_deadline_spans ∧
      ¬∃ s ∈ seen_deadline_spans, s.1 ≤ m.start ∧ m.stop ≤ s.2

/-- The matches, in the order of their entries. -/
def time_sources (query : List Char) : List TimeSource :=
  (finditer ISO_DATE_RE query).map (⟨.iso_date, ·⟩) ++
    ((finditer CN_DATE_RE query).map (⟨.cn_date, ·⟩) ++
      ((finditer DEADLINE_RE query).map (⟨.deadline, ·⟩) ++
        ((durations query).map (⟨.duration, ·⟩) ++
          (finditer RELATIVE_TIME_RE query).map (⟨.relative_time, ·⟩))))

def zfill (width : Nat) (letters : List Char) : List Char :=
  List.replicate (width - letters.length) '0' ++ letters

/-- `int` of a group of digits. -/
def int_of (letters : List Char) : PyVal := .int ((numberValue letters).getD 0 : Nat)

def relative_value (num_str : List Char) : PyVal :=
  if num_str.all isDecimal then int_of num_str
  else .int ((CN_NUM_MAP.lookup num_str).getD 0 : Nat)

/-- The entry of a match. -/
def time_entry (query : List Char) (source : TimeSource) : PyDict :=
  let m := source.found
  let group := fun n => (m.group query n).getD []
  let text := fun letters => PyVal.str (String.ofList letters)
  let raw := text (m.text query)
  match source.kind with
  | .iso_date =>
    [("type", .str "date"),
      ("value", text (group 1 ++ '-' :: zfill 2 (group 2) ++ '-' :: zfill 2 (group 3))), ("raw", raw)]
  | .cn_date =>
    let day := if group 3 = [] then ['0', '1'] else group 3
    [("type", .str "date"),
      ("value", text (group 1 ++ '-' :: zfill 2 (group 2) ++ '-' :: zfill 2 day)), ("raw", raw)]
  | .deadline => [("type", .str "deadline"), ("value", int_of (group 1)), ("raw", raw)]
  | .duration =>
    [("type", .str "duration"), ("value", int_of (group 1)), ("unit", text (group 2)), ("raw", raw)]
  | .relative_time =>
    [("type", .str "relative_time"), ("value", relative_value (group 1)), ("unit", text (group 2)),
      ("raw", raw)]

/-- `_extract_times`. -/
def extract_times (query : String) : List PyDict :=
  (time_sources query.toList).map (time_entry query.toList)

/-! ## What digits are not -/

variable {query : List Char} {m u l x : Found} {b g i j k : Nat} {c : Char}

abbrev Digit (c : Char) : Prop := isDecimal c = true

/-- A letter that may stand between a number and its unit. -/
abbrev Between (c : Char) : Prop := is_space c = true ∨ c = '个'

abbrev DateMark (c : Char) : Prop := c = '/' ∨ c = '-'

theorem digit_no_space (h : Digit c) : is_space c = false := not_of_isDecimal (by decide +kernel) h

theorem digit_no_mark (h : Digit c) : ¬DateMark c := by
  have hmark : decide (DateMark c) = false :=
    not_of_isDecimal (f := fun c => decide (DateMark c)) (by decide +kernel) h
  exact of_decide_eq_false hmark

theorem digit_no_cn_num (h : Digit c) : is_cn_num c = false := not_of_isDecimal (by decide +kernel) h

theorem space_no_digit (h : is_space c = true) : ¬Digit c := by
  intro hdigit
  rw [digit_no_space hdigit] at h
  cases h

/-! ## Durations and deadlines -/

/-- The match begins with digits, up to `j`, and has none after them. -/
structure Numbered (query : List Char) (m : Found) (j : Nat) : Prop where
  digits : AllOf Digit query m.start j
  first : m.start < j
  rest : AllOf (fun c => ¬Digit c) query j m.stop
  last : j < m.stop

theorem numbered {tail : Regex Char} (hm : IsMatch (.seq number tail) query m)
    (htail : tail.Over fun c => ¬Digit c) (hleast : 0 < tail.least) :
    ∃ j, Numbered query m j ∧ ∃ f ∈ ends tail query j, m.stop = f.1 := by
  unfold IsMatch number at hm
  simp only [mem_ends_seq, mem_ends_group, mem_ends_rep] at hm
  obtain ⟨_, ⟨_, ⟨j, hdigits, hfirst, -, rfl⟩, rfl⟩, f, hf, he⟩ := hm
  have hstop : m.stop = f.1 := congrArg Prod.fst he
  have hlast := least_le hf
  refine ⟨j, ⟨hdigits, by omega, ?_, ?_⟩, f, hf, hstop⟩
  · rw [hstop]
    exact htail.allOf hf
  · rw [hstop]
    dsimp only at hlast
    omega

theorem between_over : (Regex.seq spaces counter).Over Between :=
  ⟨fun _ h => .inl h, over_opt (over_word (by decide +kernel))⟩

theorem between_no_digit : (Regex.seq spaces counter).Over fun c => ¬Digit c :=
  ⟨fun _ h => space_no_digit h, over_opt (over_word (by decide +kernel))⟩

theorem within_no_digit : within_mark.Over fun c => ¬Digit c :=
  ⟨⟨over_opt (over_word (by decide +kernel)), over_word (by decide +kernel)⟩, over_word (by decide +kernel)⟩

/-- The unit of a duration is one letter, after spaces and a counter. -/
theorem duration_numbered (hm : IsMatch DURATION_RE query m) :
    ∃ j g, Numbered query m j ∧ AllOf Between query j g ∧ m.stop = g + 1 := by
  have hunits : ∀ w ∈ duration_units, w.length = 1 ∧ ∀ c ∈ w, ¬Digit c := by decide +kernel
  obtain ⟨j, hnumbered, f, hf, hstop⟩ := numbered hm
    ⟨between_no_digit, over_words fun w hw => (hunits w hw).2⟩ (by decide)
  obtain ⟨g, hg, e, he, rfl⟩ := mem_ends_seq.1 hf
  obtain ⟨e', he', rfl⟩ := mem_ends_group.1 he
  obtain ⟨w, hw, -, rfl⟩ := mem_ends_words.1 he'
  refine ⟨j, g.1, hnumbered, between_over.allOf hg, ?_⟩
  rw [hstop, ← (hunits w hw).1]

/-- The unit of a deadline begins with another letter than a space or a
counter. -/
theorem deadline_numbered (hm : IsMatch DEADLINE_RE query m) :
    ∃ j g c, Numbered query m j ∧ j ≤ g ∧ g < m.stop ∧ query[g]? = some c ∧ ¬Between c := by
  have hunits : ∀ w ∈ deadline_units, w ≠ [] ∧ ∀ c ∈ w, ¬Digit c ∧ ¬Between c := by decide +kernel
  obtain ⟨j, hnumbered, f, hf, hstop⟩ := numbered hm
    ⟨between_no_digit, over_words fun w hw c hc => ((hunits w hw).2 c hc).1,
      fun _ h => space_no_digit h, within_no_digit⟩ (by decide)
  obtain ⟨g, hg, e, he, rfl⟩ := mem_ends_seq.1 hf
  obtain ⟨e', he', e'', he'', rfl⟩ := mem_ends_seq.1 he
  obtain ⟨w, hw, hreads, rfl⟩ := mem_ends_words.1 he'
  have hlength : 0 < w.length := List.length_pos_iff.2 (hunits w hw).1
  have hletter : query[g.1]? = some w[0] := (hreads.get hlength).trans (List.getElem?_eq_getElem hlength)
  have hle := least_le he''
  have hstart := (between_over.allOf hg).1
  refine ⟨j, g.1, w[0], hnumbered, hstart, ?_, hletter, ((hunits w hw).2 _ (List.getElem_mem hlength)).2⟩
  rw [hstop]
  dsimp only at hle ⊢
  omega

/-- Both begin with the same digits, then. -/
theorem Numbered.same {j' : Nat} (h : Numbered query m j) (h' : Numbered query x j')
    (hle : m.start ≤ x.start) (hlt : x.start < m.stop) : j' = j := by
  have hin : x.start < j := by
    by_contra hout
    exact h'.digits.apart h.rest (fun c hc hno => hno hc) (Nat.le_refl _) h'.first (by omega) hlt
  have hdigits := h.digits.1
  have hfirst := h'.first
  have hlast := h.last
  have hlast' := h'.last
  rcases Nat.lt_trichotomy j' j with hj | hj | hj
  · exact (h.digits.apart h'.rest (fun c hc hno => hno hc) (by omega) hj (Nat.le_refl _) hlast').elim
  · exact hj
  · exact (h'.digits.apart h.rest (fun c hc hno => hno hc) (by omega) hj (Nat.le_refl _) hlast).elim

/-- A duration that begins in a deadline ends in it. -/
theorem duration_in_deadline (hu : IsMatch DURATION_RE query u) (hl : IsMatch DEADLINE_RE query l)
    (hle : l.start ≤ u.start) (hlt : u.start < l.stop) : u.stop ≤ l.stop := by
  obtain ⟨j, g, hu, hbetween, hstop⟩ := duration_numbered hu
  obtain ⟨j', g', c, hl, hg', hlast, hc, hno⟩ := deadline_numbered hl
  have hj := hl.same hu hle hlt
  have hg : g ≤ g' := by
    by_contra hlate
    obtain ⟨d, hd, hd'⟩ := hbetween.2 g' (by omega) (by omega)
    cases hc.symm.trans hd
    exact hno hd'
  omega

/-- A duration that begins before a deadline ends before it: a number would
begin the deadline where it begins the duration. -/
theorem duration_before_deadline (hu : IsMatch DURATION_RE query u) (hl : l ∈ finditer DEADLINE_RE query)
    (hlt : u.start < l.start) : u.stop ≤ l.start := by
  by_contra hlate
  obtain ⟨j, g, hnumbered, -, -⟩ := duration_numbered hu
  obtain ⟨j', -, -, hnumbered', -⟩ := deadline_numbered (mem_finditer hl)
  have hl_digits : l.start < j := by
    by_contra hout
    exact hnumbered'.digits.apart hnumbered.rest (fun c hc hno => hno hc) (Nat.le_refl _) hnumbered'.first
      (by omega) (by omega)
  have hdigits : AllOf Digit query u.start l.start :=
    hnumbered.digits.sub (Nat.le_refl _) hlt.le hl_digits.le
  have hhere : MatchesAt DEADLINE_RE query l.start := List.ne_nil_of_mem (mem_finditer hl)
  obtain ⟨m, hm, hstart, hstop⟩ := finditer_covers (by decide) (matches_from_before hhere hdigits)
  obtain ⟨n, -, -, hnumbered'', -⟩ := deadline_numbered (mem_finditer hm)
  have hlast := hnumbered''.last
  have hlast' := hnumbered'.last
  have hfirst' := hnumbered'.first
  have hne : m ≠ l := by
    rintro rfl
    omega
  have hbefore : m.stop ≤ l.start := by
    rcases (finditer_apart DEADLINE_RE query).forall hm hl hne with h | h <;> omega
  exact hdigits.apart hnumbered''.rest (fun c hc hno => hno hc) (k := m.stop - 1) (by omega) (by omega)
    (by omega) (by omega)

/-- A duration that is reported shares nothing with a deadline. -/
theorem duration_apart_deadline (hu : u ∈ durations query) (hl : l ∈ finditer DEADLINE_RE query) :
    Apart u l := by
  unfold durations at hu
  obtain ⟨hin, hout⟩ := List.mem_filter.1 hu
  by_cases hlt : u.start < l.start
  · exact .inl (duration_before_deadline (mem_finditer hin) hl hlt)
  · by_cases hafter : l.stop ≤ u.start
    · exact .inr hafter
    · have hinside := duration_in_deadline (mem_finditer hin) (mem_finditer hl) (by omega) (by omega)
      refine absurd ⟨_, List.mem_map_of_mem hl, by omega, hinside⟩ (of_decide_eq_true hout).2

/-! ## ISO dates -/

/-- Where the marks of the date stand, and its digits. -/
structure IsoDate (query : List Char) (m : Found) (b : Nat) : Prop where
  year : AllOf Digit query m.start (m.start + 4)
  first_mark : AllOf DateMark query (m.start + 4) (m.start + 5)
  month : AllOf Digit query (m.start + 5) b
  second_mark : AllOf DateMark query b (b + 1)
  day : AllOf Digit query (b + 1) m.stop
  some_day : b + 1 < m.stop
  groups : m.groups = [(1, m.start, m.start + 4), (2, m.start + 5, b), (3, b + 1, m.stop)]

theorem iso_date (hm : IsMatch ISO_DATE_RE query m) : ∃ b, IsoDate query m b := by
  unfold IsMatch ISO_DATE_RE date_mark one at hm
  simp only [mem_ends_seq, mem_ends_group, mem_ends_rep] at hm
  obtain ⟨_, ⟨_, ⟨y, hyear, hy, hy', rfl⟩, rfl⟩, _, ⟨_, ⟨a, hmark, ha, ha', rfl⟩,
    _, ⟨_, ⟨_, ⟨b, hmonth, -, -, rfl⟩, rfl⟩, _, ⟨_, ⟨c, hmark', hc, hc', rfl⟩,
      _, ⟨_, ⟨d, hday, hd, -, rfl⟩, rfl⟩, rfl⟩, rfl⟩, rfl⟩, he⟩ := hm
  have hyear_end : y = m.start + 4 := Nat.le_antisymm (hy' 4 rfl) hy
  have hmark_end : a = y + 1 := Nat.le_antisymm (ha' 1 rfl) ha
  have hmark_end' : c = b + 1 := Nat.le_antisymm (hc' 1 rfl) hc
  have hstop : m.stop = d := congrArg Prod.fst he
  have hgroups := congrArg Prod.snd he
  subst hyear_end hmark_end hmark_end' hstop
  refine ⟨b, hyear, hmark.mono ?_, hmonth, hmark'.mono ?_, hday, hd, hgroups⟩
  · exact fun c hc => of_decide_eq_true hc
  · exact fun c hc => of_decide_eq_true hc

theorem IsoDate.day_group (h : IsoDate query m b) : (3, b + 1, m.stop) ∈ m.groups := by
  rw [h.groups]
  simp

theorem IsoDate.day_begins (h : IsoDate query m b) (hgroup : (3, i, j) ∈ m.groups) : i = b + 1 := by
  rw [h.groups] at hgroup
  simp at hgroup
  exact hgroup.1

/-- What begins with a number and has no mark meets a date in its day. -/
theorem IsoDate.meets (h : IsoDate query m b) (hx : Numbered query x j)
    (hmarks : AllOf (fun c => ¬DateMark c) query x.start x.stop) (hbefore : m.start < x.stop) :
    b + 1 ≤ x.start := by
  have hfirst := hx.first
  have hlast := hx.last
  by_contra hearly
  have hout : ∀ k, AllOf DateMark query k (k + 1) → ¬(x.start ≤ k ∧ k < x.stop) := by
    rintro k hk ⟨hle, hlt⟩
    exact hk.apart hmarks (fun c hc hno => hno hc) (Nat.le_refl _) (Nat.lt_succ_self _) hle hlt
  have hlast_out : ∀ i k, AllOf Digit query i k → ¬(i < x.stop ∧ x.stop ≤ k) := by
    rintro i k hk ⟨hi, hle⟩
    exact hk.apart hx.rest (fun c hc hno => hno hc) (k := x.stop - 1) (by omega) (by omega) (by omega)
      (by omega)
  have hmark := hout _ h.first_mark
  have hmark' := hout _ h.second_mark
  have hyear := hlast_out _ _ h.year
  have hmonth := hlast_out _ _ h.month
  have hle := h.month.1
  omega

/-! ## The letters of the patterns -/

/-- The letters of the units and their marks. -/
def unit_letters : List Char := ['个', '天', '日', '周', '月', '年', '工', '作', '以', '内', '之']

variable {P : Char → Prop}

theorem duration_over (hdigit : ∀ c, Digit c → P c) (hspace : ∀ c, is_space c = true → P c)
    (hletters : ∀ c ∈ unit_letters, P c) : DURATION_RE.Over P := by
  have hunits : ∀ w ∈ duration_units, ∀ c ∈ w, c ∈ unit_letters := by decide
  refine ⟨hdigit, ⟨hspace, over_opt (over_word ?_)⟩, over_words fun w hw c hc => ?_⟩
  · simpa using hletters '个' (by decide)
  · exact hletters c (hunits w hw c hc)

theorem deadline_over (hdigit : ∀ c, Digit c → P c) (hspace : ∀ c, is_space c = true → P c)
    (hletters : ∀ c ∈ unit_letters, P c) : DEADLINE_RE.Over P := by
  have hunits : ∀ w ∈ deadline_units, ∀ c ∈ w, c ∈ unit_letters := by decide
  refine ⟨hdigit, ⟨hspace, over_opt (over_word ?_)⟩, over_words fun w hw c hc => ?_, hspace,
    ⟨over_opt (over_word ?_), over_word ?_⟩, over_word ?_⟩
  · simpa using hletters '个' (by decide)
  · exact hletters c (hunits w hw c hc)
  · simpa using hletters '以' (by decide)
  · simpa using hletters '内' (by decide)
  · simpa using ⟨hletters '之' (by decide), hletters '内' (by decide)⟩

theorem space_no_mark (h : is_space c = true) : ¬DateMark c := by
  rintro (rfl | rfl) <;> cases h

theorem duration_no_mark : DURATION_RE.Over fun c => ¬DateMark c :=
  duration_over (fun _ h => digit_no_mark h) (fun _ h => space_no_mark h) (by decide)

theorem deadline_no_mark : DEADLINE_RE.Over fun c => ¬DateMark c :=
  deadline_over (fun _ h => digit_no_mark h) (fun _ h => space_no_mark h) (by decide)

/-! ## Relative times -/

theorem digit_no_near (h : Digit c) : c ≠ '近' := by
  rintro rfl
  exact absurd h (by decide +kernel)

theorem space_no_near (h : is_space c = true) : c ≠ '近' := by
  rintro rfl
  cases h

theorem cn_num_no_near (h : is_cn_num c = true) : c ≠ '近' := by
  rintro rfl
  exact absurd h (by decide)

/-- The mark of a relative time stands at its start only. -/
theorem relative_time (hm : IsMatch RELATIVE_TIME_RE query m) :
    query[m.start]? = some '近' ∧ AllOf (fun c => c ≠ '近') query (m.start + 1) m.stop := by
  obtain ⟨_, hnear, f, hf, he⟩ := mem_ends_seq.1 hm
  obtain ⟨hreads, rfl⟩ := mem_ends_word.1 hnear
  refine ⟨reads_one.1 hreads, ?_⟩
  rw [show m.stop = f.1 from congrArg Prod.fst he]
  have hover : (Regex.seq (.group 1 (.alt (.rep isDecimal 1 none) (.rep is_cn_num 1 none)))
      (.seq counter (.group 2 (words [['年'], ['月']])))).Over fun c => c ≠ '近' :=
    ⟨⟨fun _ h => digit_no_near h, fun _ h => cn_num_no_near h⟩, over_opt (over_word (by decide)),
      over_words (by decide)⟩
  exact hover.allOf hf

/-! ## Where a duration begins -/

theorem duration_at {f : Nat × Groups} {w : List Char} (hdigits : AllOf Digit query i j) (hlt : i < j)
    (hf : f ∈ ends counter query j) (hw : w ∈ duration_units) (hreads : Reads query f.1 w) :
    MatchesAt DURATION_RE query i := by
  have hspaces : (j, []) ∈ ends spaces query j :=
    mem_ends_rep.2 ⟨j, AllOf.refl _ _ _, Nat.le_refl j, by simp, rfl⟩
  have hnumber : (j, [(1, i, j)]) ∈ ends number query i :=
    mem_ends_group.2 ⟨_, mem_ends_rep.2 ⟨j, hdigits, hlt, by simp, rfl⟩, rfl⟩
  exact List.ne_nil_of_mem (mem_ends_seq.2 ⟨_, hnumber, _, mem_ends_seq.2 ⟨_, mem_ends_seq.2
    ⟨_, hspaces, f, hf, rfl⟩, _, mem_ends_group.2 ⟨_, mem_ends_words.2 ⟨w, hw, hreads, rfl⟩, rfl⟩, rfl⟩, rfl⟩)

/-- The year of a Chinese date is a duration. -/
theorem cn_date_begins_duration (hm : IsMatch CN_DATE_RE query m) : MatchesAt DURATION_RE query m.start := by
  obtain ⟨_, hgroup, f, hf, -⟩ := mem_ends_seq.1 hm
  obtain ⟨e, hyear, rfl⟩ := mem_ends_group.1 hgroup
  obtain ⟨j, hdigits, hlt, -, rfl⟩ := mem_ends_rep.1 hyear
  obtain ⟨g, hunit, -⟩ := mem_ends_seq.1 hf
  obtain ⟨hreads, -⟩ := mem_ends_word.1 hunit
  exact duration_at hdigits (by omega) (mem_ends_opt.2 (.inr rfl)) (by decide) hreads

/-- A relative time whose number begins with a digit holds a duration. -/
theorem digits_hold_duration (h : MatchesAt RELATIVE_TIME_RE query i) (hc : query[i + 1]? = some c)
    (hdigit : Digit c) : MatchesAt DURATION_RE query (i + 1) := by
  obtain ⟨e, he⟩ := List.exists_mem_of_ne_nil _ h
  obtain ⟨_, hnear, f, hf, -⟩ := mem_ends_seq.1 he
  obtain ⟨-, rfl⟩ := mem_ends_word.1 hnear
  obtain ⟨_, hgroup, g, hg, -⟩ := mem_ends_seq.1 hf
  obtain ⟨e', hnum, rfl⟩ := mem_ends_group.1 hgroup
  obtain ⟨f', hcounter, _, hunit, -⟩ := mem_ends_seq.1 hg
  obtain ⟨e'', hunit, -⟩ := mem_ends_group.1 hunit
  obtain ⟨w, hw, hreads, -⟩ := mem_ends_words.1 hunit
  have hunits : ∀ w ∈ [['年'], ['月']], w ∈ duration_units := by decide
  rcases mem_ends_alt.1 hnum with hnum | hnum
  · obtain ⟨j, hdigits, hlt, -, rfl⟩ := mem_ends_rep.1 hnum
    exact duration_at hdigits hlt hcounter (hunits w hw) hreads
  · obtain ⟨j, hcn, hlt, -, -⟩ := mem_ends_rep.1 hnum
    obtain ⟨d, hd, hd'⟩ := hcn.2 (i + 1) (Nat.le_refl _) hlt
    cases hc.symm.trans hd
    rw [digit_no_cn_num hdigit] at hd'
    cases hd'

/-- A relative time whose number begins with no digit has none. -/
theorem relative_no_digit (hm : IsMatch RELATIVE_TIME_RE query m)
    (hno : ∀ c, query[m.start + 1]? = some c → ¬Digit c) : AllOf (fun c => ¬Digit c) query m.start m.stop := by
  obtain ⟨_, hnear, f, hf, he⟩ := mem_ends_seq.1 hm
  obtain ⟨hreads, rfl⟩ := mem_ends_word.1 hnear
  obtain ⟨_, hgroup, g, hg, rfl⟩ := mem_ends_seq.1 hf
  obtain ⟨e', hnum, rfl⟩ := mem_ends_group.1 hgroup
  have hstart : AllOf (fun c => ¬Digit c) query m.start (m.start + 1) := hreads.allOf (by decide +kernel)
  have hnumber : AllOf (fun c => ¬Digit c) query (m.start + 1) e'.1 := by
    rcases mem_ends_alt.1 hnum with hnum | hnum
    · obtain ⟨j, hdigits, hlt, -, -⟩ := mem_ends_rep.1 hnum
      obtain ⟨d, hd, hd'⟩ := hdigits.2 (m.start + 1) (Nat.le_refl _) hlt
      exact absurd hd' (hno d hd)
    · have hcn : (Regex.rep is_cn_num 1 none).Over fun c => ¬Digit c := by
        intro c hc hdigit
        rw [digit_no_cn_num hdigit] at hc
        cases hc
      exact hcn.allOf hnum
  have hunit : (Regex.seq counter (.group 2 (words [['年'], ['月']]))).Over fun c => ¬Digit c :=
    ⟨over_opt (over_word (by decide +kernel)), over_words (by decide +kernel)⟩
  have hstop : m.stop = g.1 := congrArg Prod.fst he
  rw [hstop]
  exact (hstart.trans hnumber).trans (hunit.allOf hg)

/-! ## Overlaps -/

/-- No letter of the query stands in two of the matches that entries are
taken from. -/
def CountsOnce (query : List Char) : Prop :=
  (time_sources query).Pairwise fun a b => Apart a.found b.found

/-- The query has no Chinese date and no relative time in digits, and the day
of no ISO date begins a duration or a deadline. -/
structure NoSharedNumber (query : List Char) : Prop where
  no_cn_date : ∀ i, ¬MatchesAt CN_DATE_RE query i
  no_digits : ∀ i c, MatchesAt RELATIVE_TIME_RE query i → query[i + 1]? = some c → ¬Digit c
  iso_days : ∀ m ∈ finditer ISO_DATE_RE query, ∀ i j, (3, i, j) ∈ m.groups →
    ¬MatchesAt DURATION_RE query i ∧ ¬MatchesAt DEADLINE_RE query i

theorem mem_time_sources {y : TimeSource} : y ∈ time_sources query ↔
    match y.kind with
    | .iso_date => y.found ∈ finditer ISO_DATE_RE query
    | .cn_date => y.found ∈ finditer CN_DATE_RE query
    | .deadline => y.found ∈ finditer DEADLINE_RE query
    | .duration => y.found ∈ durations query
    | .relative_time => y.found ∈ finditer RELATIVE_TIME_RE query := by
  obtain ⟨kind, found⟩ := y
  unfold time_sources
  cases kind <;> simp

/-- Two entries of different kinds share no letter. -/
theorem CountsOnce.no_clash {y z : TimeSource} (h : CountsOnce query) (hy : y ∈ time_sources query)
    (hz : z ∈ time_sources query) (hkind : y.kind ≠ z.kind) (hy_start : y.found.start ≤ k)
    (hy_stop : k < y.found.stop) (hz_start : z.found.start ≤ k) (hz_stop : k < z.found.stop) : False := by
  have hsymm : Std.Symm fun a b : TimeSource => Apart a.found b.found := ⟨fun _ _ h => h.symm⟩
  have hne : y ≠ z := by
    rintro rfl
    exact hkind rfl
  rcases List.Pairwise.forall h hy hz hne with h | h <;> omega

/-- Where a duration or a deadline begins, one of the two is reported. -/
theorem number_is_reported (h : MatchesAt DURATION_RE query k ∨ MatchesAt DEADLINE_RE query k) :
    ∃ y ∈ time_sources query, (y.kind = .deadline ∨ y.kind = .duration) ∧ y.found.start ≤ k ∧
      k < y.found.stop := by
  rcases h with h | h
  · obtain ⟨m, hm, hstart, hstop⟩ := finditer_covers (by decide) h
    by_cases hin : m ∈ durations query
    · exact ⟨⟨.duration, m⟩, mem_time_sources.2 hin, .inr rfl, hstart, hstop⟩
    · unfold durations at hin
      rw [List.mem_filter, decide_eq_true_eq] at hin
      have hseen : ∃ s ∈ (finditer DEADLINE_RE query).map fun m => (m.start, m.stop),
          s.1 ≤ m.start ∧ m.stop ≤ s.2 := by
        by_contra hno
        refine hin ⟨hm, fun hspan => hno ⟨_, hspan, Nat.le_refl _, Nat.le_refl _⟩, hno⟩
      obtain ⟨_, hspan, hle, hle'⟩ := hseen
      obtain ⟨l, hl, rfl⟩ := List.mem_map.1 hspan
      exact ⟨⟨.deadline, l⟩, mem_time_sources.2 hl, .inl rfl, Nat.le_trans hle hstart,
        Nat.lt_of_lt_of_le hstop hle'⟩
  · obtain ⟨l, hl, hstart, hstop⟩ := finditer_covers (by decide) h
    exact ⟨⟨.deadline, l⟩, mem_time_sources.2 hl, .inl rfl, hstart, hstop⟩

/-- No duration and no deadline begins in an entry of another kind. -/
theorem CountsOnce.no_number {kind : TimeKind} (h : CountsOnce query) (hm : ⟨kind, m⟩ ∈ time_sources query)
    (hkind : kind ≠ .deadline ∧ kind ≠ .duration) (hstart : m.start ≤ k) (hstop : k < m.stop) :
    ¬MatchesAt DURATION_RE query k ∧ ¬MatchesAt DEADLINE_RE query k := by
  rw [← not_or]
  intro hnumber
  obtain ⟨z, hz, hzkind, hzstart, hzstop⟩ := number_is_reported hnumber
  refine h.no_clash hm hz ?_ hstart hstop hzstart hzstop
  rcases hzkind with hz | hz <;> rw [hz]
  · exact hkind.1
  · exact hkind.2

theorem CountsOnce.no_shared (h : CountsOnce query) : NoSharedNumber query := by
  constructor
  case no_cn_date =>
    intro i hi
    obtain ⟨m, hm, -, -⟩ := finditer_covers (by decide) hi
    have hlt := (mem_finditer hm).lt (by decide)
    have hin : ⟨.cn_date, m⟩ ∈ time_sources query := mem_time_sources.2 hm
    exact (h.no_number hin (by decide) (Nat.le_refl _) hlt).1 (cn_date_begins_duration (mem_finditer hm))
  case no_digits =>
    intro i c hi hc hdigit
    obtain ⟨e, he⟩ := List.exists_mem_of_ne_nil _ hi
    obtain ⟨m, hm, hstart, hstop⟩ := finditer_covers (by decide) hi
    have hin : ⟨.relative_time, m⟩ ∈ time_sources query := mem_time_sources.2 hm
    have hnear : query[i]? = some '近' := (relative_time (m := ⟨i, e.1, e.2⟩) he).1
    have hi_start : i = m.start := by
      by_contra hne
      obtain ⟨d, hd, hno⟩ := (relative_time (mem_finditer hm)).2.2 i (by omega) hstop
      cases hnear.symm.trans hd
      exact hno rfl
    have hlast := least_le (mem_finditer hm)
    have hleast : RELATIVE_TIME_RE.least = 3 := by decide
    dsimp only at hlast
    exact (h.no_number hin (by decide) (by omega) (by omega)).1 (digits_hold_duration hi hc hdigit)
  case iso_days =>
    intro m hm i j hgroup
    obtain ⟨b, hiso⟩ := iso_date (mem_finditer hm)
    have hi : i = b + 1 := hiso.day_begins hgroup
    have hmonth := hiso.month.1
    have hday := hiso.some_day
    have hin : ⟨.iso_date, m⟩ ∈ time_sources query := mem_time_sources.2 hm
    rw [hi]
    exact h.no_number hin (by decide) (by omega) hday

/-! ## Queries without a shared number -/

/-- What begins with a number, has no mark of a relative time and stands with
one without a digit, shares nothing with it. -/
theorem apart_relative (hx_digit : ∃ c, query[x.start]? = some c ∧ Digit c)
    (hx : AllOf (fun c => c ≠ '近') query x.start x.stop) (hm : IsMatch RELATIVE_TIME_RE query m)
    (hno : AllOf (fun c => ¬Digit c) query m.start m.stop) : Apart x m := by
  obtain ⟨c, hc, hdigit⟩ := hx_digit
  by_cases hbefore : x.start ≤ m.start
  · left
    by_contra hlate
    obtain ⟨d, hd, hnear⟩ := hx.2 m.start hbefore (by omega)
    cases (relative_time hm).1.symm.trans hd
    exact hnear rfl
  · right
    by_contra hlate
    obtain ⟨d, hd, hno⟩ := hno.2 x.start (by omega) (by omega)
    cases hc.symm.trans hd
    exact hno hdigit

theorem iso_apart_number (hm : IsoDate query m b) (hx : Numbered query x j)
    (hmarks : AllOf (fun c => ¬DateMark c) query x.start x.stop) {tail : Regex Char}
    (hmatch : MatchesAt (.seq number tail) query x.start)
    (hday : ¬MatchesAt (.seq number tail) query (b + 1)) : Apart m x := by
  by_cases hbefore : m.start < x.stop
  · left
    by_contra hlate
    have hin := hm.meets hx hmarks hbefore
    exact hday (matches_from_before hmatch (hm.day.sub (Nat.le_refl _) hin (by omega)))
  · exact .inr (by omega)

theorem Numbered.digit_first (h : Numbered query m j) : ∃ c, query[m.start]? = some c ∧ Digit c :=
  h.digits.2 m.start (Nat.le_refl _) h.first

theorem NoSharedNumber.iso_apart_duration (h : NoSharedNumber query) (hm : m ∈ finditer ISO_DATE_RE query)
    (hx : x ∈ finditer DURATION_RE query) : Apart m x := by
  obtain ⟨b, hiso⟩ := iso_date (mem_finditer hm)
  obtain ⟨j, -, hnumbered, -⟩ := duration_numbered (mem_finditer hx)
  exact iso_apart_number hiso hnumbered (duration_no_mark.allOf (mem_finditer hx))
    (List.ne_nil_of_mem (mem_finditer hx)) (h.iso_days m hm _ _ hiso.day_group).1

theorem NoSharedNumber.iso_apart_deadline (h : NoSharedNumber query) (hm : m ∈ finditer ISO_DATE_RE query)
    (hx : x ∈ finditer DEADLINE_RE query) : Apart m x := by
  obtain ⟨b, hiso⟩ := iso_date (mem_finditer hm)
  obtain ⟨j, -, -, hnumbered, -⟩ := deadline_numbered (mem_finditer hx)
  exact iso_apart_number hiso hnumbered (deadline_no_mark.allOf (mem_finditer hx))
    (List.ne_nil_of_mem (mem_finditer hx)) (h.iso_days m hm _ _ hiso.day_group).2

theorem duration_no_near : DURATION_RE.Over fun c => c ≠ '近' :=
  duration_over (fun _ h => digit_no_near h) (fun _ h => space_no_near h) (by decide)

theorem deadline_no_near : DEADLINE_RE.Over fun c => c ≠ '近' :=
  deadline_over (fun _ h => digit_no_near h) (fun _ h => space_no_near h) (by decide)

theorem iso_no_near : ISO_DATE_RE.Over fun c => c ≠ '近' := by
  have hmark : date_mark.Over fun c => c ≠ '近' := by
    rintro c hc rfl
    exact absurd hc (by decide)
  have hdigits : ∀ n least most, (Regex.group n (.rep isDecimal least most)).Over fun c => c ≠ '近' :=
    fun _ _ _ _ h => digit_no_near h
  exact ⟨hdigits _ _ _, hmark, hdigits _ _ _, hmark, hdigits _ _ _⟩

/-- What begins with a digit and has no mark of a relative time shares
nothing with one. -/
theorem NoSharedNumber.apart_relative_time (h : NoSharedNumber query)
    (hx_digit : ∃ c, query[x.start]? = some c ∧ Digit c) (hx : AllOf (fun c => c ≠ '近') query x.start x.stop)
    (hm : m ∈ finditer RELATIVE_TIME_RE query) : Apart x m := by
  have hmatch := mem_finditer hm
  exact apart_relative hx_digit hx hmatch (relative_no_digit hmatch fun c hc =>
    h.no_digits _ c (List.ne_nil_of_mem hmatch) hc)

theorem NoSharedNumber.counts_once (h : NoSharedNumber query) : CountsOnce query := by
  have hcn : finditer CN_DATE_RE query = [] := by
    rw [List.eq_nil_iff_forall_not_mem]
    exact fun m hm => h.no_cn_date m.start (List.ne_nil_of_mem (mem_finditer hm))
  have hdurations : ∀ u ∈ durations query, u ∈ finditer DURATION_RE query :=
    fun u hu => List.mem_of_mem_filter hu
  have hiso_relative : ∀ m ∈ finditer ISO_DATE_RE query, ∀ x ∈ finditer RELATIVE_TIME_RE query, Apart m x := by
    intro m hm x hx
    obtain ⟨b, hiso⟩ := iso_date (mem_finditer hm)
    exact h.apart_relative_time (hiso.year.2 m.start (Nat.le_refl _) (by omega))
      (iso_no_near.allOf (mem_finditer hm)) hx
  have hdeadline_relative : ∀ m ∈ finditer DEADLINE_RE query, ∀ x ∈ finditer RELATIVE_TIME_RE query,
      Apart m x := by
    intro m hm x hx
    obtain ⟨j, -, -, hnumbered, -⟩ := deadline_numbered (mem_finditer hm)
    exact h.apart_relative_time hnumbered.digit_first (deadline_no_near.allOf (mem_finditer hm)) hx
  have hduration_relative : ∀ m ∈ durations query, ∀ x ∈ finditer RELATIVE_TIME_RE query, Apart m x := by
    intro m hm x hx
    have hmatch := mem_finditer (hdurations m hm)
    obtain ⟨j, -, hnumbered, -⟩ := duration_numbered hmatch
    exact h.apart_relative_time hnumbered.digit_first (duration_no_near.allOf hmatch) hx
  unfold CountsOnce time_sources
  rw [hcn]
  simp only [List.map_nil, List.nil_append, List.pairwise_append, List.pairwise_map, List.mem_append,
    List.mem_map, or_imp, forall_and, forall_exists_index, and_imp, forall_apply_eq_imp_iff₂]
  have hdurations_apart : (durations query).Pairwise Apart := (finditer_apart DURATION_RE query).filter _
  refine ⟨finditer_apart _ _, ⟨finditer_apart _ _, ⟨hdurations_apart, finditer_apart _ _,
    hduration_relative⟩, fun l hl u hu => (duration_apart_deadline hu hl).symm, hdeadline_relative⟩,
    fun m hm x hx => h.iso_apart_deadline hm hx, fun m hm x hx => h.iso_apart_duration hm (hdurations x hx),
    hiso_relative⟩

/-- No letter stands in two entries exactly if the query has no Chinese date
and no relative time in digits, and no ISO date ends in the number of a
duration or a deadline. -/
theorem counts_once_iff (query : List Char) : CountsOnce query ↔ NoSharedNumber query :=
  ⟨CountsOnce.no_shared, NoSharedNumber.counts_once⟩

instance (query : List Char) : Decidable (CountsOnce query) :=
  inferInstanceAs (Decidable (List.Pairwise _ _))

/-- The year and the month of a date are durations of their own. -/
theorem date_counts_three_times : ¬CountsOnce "2024年5月".toList := by decide +kernel

end bid_evaluation.time_constraints
