-- Patterns over a text, as a backtracking engine matches them: the ends of a
-- pattern from a position, in the order in which they are tried. A scan takes
-- the first end from left to right, and goes on where the match ended.
import Mathlib.Data.List.Basic
import Mathlib.Data.List.Pairwise

namespace regex

variable {α : Type}

/-- A number, and where the group of that number begins and ends. -/
abbrev Groups := List (Nat × Nat × Nat)

inductive Regex (α : Type) where
  | word (letters : List α)
  | rep (p : α → Bool) (least : Nat) (most : Option Nat)
  | seq (r r' : Regex α)
  | alt (r r' : Regex α)
  | opt (r : Regex α)
  | group (n : Nat) (r : Regex α)

/-- One letter of a kind. -/
def one (p : α → Bool) : Regex α := .rep p 1 (some 1)

/-- One word of a list. -/
def words : List (List α) → Regex α
  | [] => one (fun _ => false)
  | [w] => .word w
  | w :: rest => .alt (.word w) (words rest)

/-- How many letters of a kind stand at the position. -/
def runLength (p : α → Bool) (s : List α) (i : Nat) : Nat := ((s.drop i).takeWhile p).length

section ends

variable [DecidableEq α]

/-- Where the pattern can end. A repetition takes as much as it can, and gives
back letter by letter. -/
def ends : Regex α → List α → Nat → List (Nat × Groups)
  | .word letters, s, i => if letters <+: s.drop i then [(i + letters.length, [])] else []
  | .rep p least most, s, i =>
    let longest := (most.map (min (runLength p s i))).getD (runLength p s i)
    (List.range (longest + 1 - least)).map fun k => (i + (longest - k), [])
  | .seq r r', s, i => (ends r s i).flatMap fun e => (ends r' s e.1).map fun e' => (e'.1, e.2 ++ e'.2)
  | .alt r r', s, i => ends r s i ++ ends r' s i
  | .opt r, s, i => ends r s i ++ [(i, [])]
  | .group n r, s, i => (ends r s i).map fun e => (e.1, e.2 ++ [(n, i, e.1)])

/-- The pattern matches at the position. -/
def MatchesAt (r : Regex α) (s : List α) (i : Nat) : Prop := ends r s i ≠ []

end ends

/-- A match, from its start up to its stop. -/
structure Found where
  start : Nat
  stop : Nat
  groups : Groups
deriving DecidableEq

/-- The text of a match. -/
def Found.text (m : Found) (s : List α) : List α := (s.take m.stop).drop m.start

/-- The text of a group, if the match has it. -/
def Found.group (m : Found) (s : List α) (n : Nat) : Option (List α) :=
  (m.groups.findRev? (fun g => g.1 = n)).map fun g => (s.take g.2.2).drop g.2.1

/-- The two share no letter. -/
def Apart (m m' : Found) : Prop := m.stop ≤ m'.start ∨ m'.stop ≤ m.start

instance (m m' : Found) : Decidable (Apart m m') := inferInstanceAs (Decidable (_ ∨ _))

instance : Std.Symm Apart := ⟨fun _ _ h => h.symm⟩

section scan

variable [DecidableEq α]

/-- The matches from a position on, at most `n` positions long. -/
def scan (r : Regex α) (s : List α) : Nat → Nat → List Found
  | 0, _ => []
  | n + 1, i =>
    match (ends r s i).head? with
    | none => scan r s n (i + 1)
    | some e => ⟨i, e.1, e.2⟩ :: scan r s n (max e.1 (i + 1))

/-- All matches of a pattern that takes at least one letter. -/
def finditer (r : Regex α) (s : List α) : List Found := scan r s s.length 0

end scan

/-! ## Letters of one kind -/

variable {p : α → Bool} {P Q : α → Prop} {s : List α} {i j k n : Nat} {r r' : Regex α} {e : Nat × Groups}

/-- Every letter from `i` up to `j` is of the kind. -/
def AllOf (P : α → Prop) (s : List α) (i j : Nat) : Prop :=
  i ≤ j ∧ ∀ k, i ≤ k → k < j → ∃ c, s[k]? = some c ∧ P c

theorem AllOf.refl (P : α → Prop) (s : List α) (i : Nat) : AllOf P s i i :=
  ⟨Nat.le_refl i, fun k hk hlt => by omega⟩

theorem AllOf.mono (h : AllOf P s i j) (hQ : ∀ c, P c → Q c) : AllOf Q s i j :=
  ⟨h.1, fun k hk hlt => (h.2 k hk hlt).imp fun c hc => ⟨hc.1, hQ c hc.2⟩⟩

theorem AllOf.trans (h : AllOf P s i j) (h' : AllOf P s j k) : AllOf P s i k := by
  refine ⟨Nat.le_trans h.1 h'.1, fun n hn hlt => ?_⟩
  by_cases hj : n < j
  · exact h.2 n hn hj
  · exact h'.2 n (by omega) hlt

theorem AllOf.sub {i' j' : Nat} (h : AllOf P s i j) (hi : i ≤ i') (hij : i' ≤ j') (hj : j' ≤ j) :
    AllOf P s i' j' :=
  ⟨hij, fun n hn hlt => h.2 n (by omega) (by omega)⟩

/-- Letters of two kinds that have none in common share no place. -/
theorem AllOf.apart {i' j' : Nat} (h : AllOf P s i j) (h' : AllOf Q s i' j') (hPQ : ∀ c, P c → ¬Q c)
    (hi : i ≤ k) (hj : k < j) (hi' : i' ≤ k) (hj' : k < j') : False := by
  obtain ⟨c, hc, hP⟩ := h.2 k hi hj
  obtain ⟨d, hd, hQ⟩ := h'.2 k hi' hj'
  cases hc.symm.trans hd
  exact hPQ c hP hQ

theorem le_takeWhile_iff (l : List α) (n : Nat) :
    n ≤ (l.takeWhile p).length ↔ ∀ k < n, ∃ c, l[k]? = some c ∧ p c = true := by
  induction l generalizing n with
  | nil =>
    constructor
    · intro h k hk
      exact absurd h (by simp; omega)
    · intro h
      cases n with
      | zero => exact Nat.le_refl 0
      | succ n =>
        obtain ⟨c, hc, -⟩ := h 0 (by omega)
        cases hc
  | cons c rest ih =>
    cases n with
    | zero => simp
    | succ n =>
      by_cases hc : p c = true
      · rw [List.takeWhile_cons_of_pos hc, List.length_cons, Nat.add_le_add_iff_right, ih]
        constructor
        · intro h k hk
          cases k with
          | zero => exact ⟨c, rfl, hc⟩
          | succ k => exact h k (by omega)
        · intro h k hk
          exact h (k + 1) (by omega)
      · rw [List.takeWhile_cons_of_neg hc]
        constructor
        · intro h
          simp at h
        · intro h
          obtain ⟨d, hd, hp⟩ := h 0 (by omega)
          cases hd
          exact absurd hp hc

theorem allOf_iff_run : AllOf (fun c => p c = true) s i j ↔ i ≤ j ∧ j - i ≤ runLength p s i := by
  unfold AllOf runLength
  rw [le_takeWhile_iff]
  constructor
  · rintro ⟨hle, h⟩
    refine ⟨hle, fun k hk => ?_⟩
    rw [List.getElem?_drop]
    exact h (i + k) (by omega) (by omega)
  · rintro ⟨hle, h⟩
    refine ⟨hle, fun k hk hlt => ?_⟩
    have hat := h (k - i) (by omega)
    rwa [List.getElem?_drop, Nat.add_sub_cancel' hk] at hat

/-- The word stands at the position. -/
def Reads (s : List α) (i : Nat) (w : List α) : Prop := w <+: s.drop i

theorem Reads.get {w : List α} (h : Reads s i w) (hk : k < w.length) : s[i + k]? = w[k]? := by
  obtain ⟨rest, hrest⟩ := h
  rw [← List.getElem?_drop, ← hrest, List.getElem?_append_left hk]

theorem reads_one {c : α} : Reads s i [c] ↔ s[i]? = some c := by
  constructor
  · intro h
    exact h.get (k := 0) Nat.zero_lt_one
  · intro h
    have hlt : i < s.length := (List.getElem?_eq_some_iff.1 h).1
    unfold Reads
    rw [List.drop_eq_getElem_cons hlt, (List.getElem?_eq_some_iff.1 h).2]
    exact ⟨_, rfl⟩

theorem Reads.allOf {w : List α} (h : Reads s i w) (hP : ∀ c ∈ w, P c) : AllOf P s i (i + w.length) := by
  refine ⟨Nat.le_add_right _ _, fun k hk hlt => ?_⟩
  have hlen : k - i < w.length := by omega
  have hat := h.get hlen
  rw [Nat.add_sub_cancel' hk] at hat
  exact ⟨w[k - i], hat.trans (List.getElem?_eq_getElem hlen), hP _ (List.getElem_mem hlen)⟩

/-! ## What a pattern takes -/

section ends

variable [DecidableEq α]

@[simp] theorem mem_ends_word {w : List α} :
    e ∈ ends (.word w) s i ↔ Reads s i w ∧ e = (i + w.length, []) := by
  unfold ends Reads
  split
  · rename_i h
    simp [h]
  · rename_i h
    simp [h]

theorem mem_ends_rep {least : Nat} {most : Option Nat} : e ∈ ends (.rep p least most) s i ↔
    ∃ j, AllOf (fun c => p c = true) s i j ∧ i + least ≤ j ∧ (∀ m ∈ most, j ≤ i + m) ∧ e = (j, []) := by
  unfold ends
  simp only [List.mem_map, List.mem_range, allOf_iff_run]
  constructor
  · rintro ⟨k, hk, rfl⟩
    refine ⟨_, ⟨by omega, ?_⟩, by omega, ?_, rfl⟩
    · cases most with
      | none => simp only [Option.map_none, Option.getD_none] at hk ⊢; omega
      | some m => simp only [Option.map_some, Option.getD_some] at hk ⊢; omega
    · rintro m ⟨⟩
      simp only [Option.map_some, Option.getD_some]
      omega
  · rintro ⟨j, ⟨hle, hrun⟩, hleast, hmost, rfl⟩
    cases most with
    | none =>
      simp only [Option.map_none, Option.getD_none]
      refine ⟨runLength p s i - (j - i), by omega, ?_⟩
      congr 1
      omega
    | some m =>
      have hm := hmost m rfl
      simp only [Option.map_some, Option.getD_some]
      refine ⟨min (runLength p s i) m - (j - i), by omega, ?_⟩
      congr 1
      omega

@[simp] theorem mem_ends_seq : e ∈ ends (.seq r r') s i ↔
    ∃ f ∈ ends r s i, ∃ g ∈ ends r' s f.1, e = (g.1, f.2 ++ g.2) := by
  rw [ends]
  simp only [List.mem_flatMap, List.mem_map, eq_comm]

@[simp] theorem mem_ends_alt : e ∈ ends (.alt r r') s i ↔ e ∈ ends r s i ∨ e ∈ ends r' s i := by
  rw [ends, List.mem_append]

@[simp] theorem mem_ends_opt : e ∈ ends (.opt r) s i ↔ e ∈ ends r s i ∨ e = (i, []) := by
  rw [ends, List.mem_append, List.mem_singleton]

@[simp] theorem mem_ends_group : e ∈ ends (.group n r) s i ↔
    ∃ f ∈ ends r s i, e = (f.1, f.2 ++ [(n, i, f.1)]) := by
  rw [ends]
  simp only [List.mem_map, eq_comm]

theorem mem_ends_words {l : List (List α)} :
    e ∈ ends (words l) s i ↔ ∃ w ∈ l, Reads s i w ∧ e = (i + w.length, []) := by
  induction l with
  | nil =>
    unfold words one
    rw [mem_ends_rep]
    constructor
    · rintro ⟨j, hall, hj, -⟩
      obtain ⟨c, -, hc⟩ := hall.2 i (Nat.le_refl i) (by omega)
      cases hc
    · rintro ⟨w, hw, -⟩
      cases hw
  | cons w rest ih =>
    cases rest with
    | nil => simp [words]
    | cons w' rest =>
      unfold words
      rw [mem_ends_alt, mem_ends_word, ih]
      simp only [List.mem_cons, exists_eq_or_imp]

end ends

/-- A pattern of letters that are all of a kind. -/
def Regex.Over (P : α → Prop) : Regex α → Prop
  | .word w => ∀ c ∈ w, P c
  | .rep p _ _ => ∀ c, p c = true → P c
  | .seq r r' => r.Over P ∧ r'.Over P
  | .alt r r' => r.Over P ∧ r'.Over P
  | .opt r => r.Over P
  | .group _ r => r.Over P

/-- A bound from below for the letters that a pattern takes. -/
def Regex.least : Regex α → Nat
  | .word w => w.length
  | .rep _ least _ => least
  | .seq r r' => r.least + r'.least
  | .alt r r' => min r.least r'.least
  | .opt _ => 0
  | .group _ r => r.least

theorem over_any (r : Regex α) : r.Over fun _ => True := by
  induction r with
  | word w => exact fun _ _ => trivial
  | rep p least most => exact fun _ _ => trivial
  | seq r r' ih ih' => exact ⟨ih, ih'⟩
  | alt r r' ih ih' => exact ⟨ih, ih'⟩
  | opt r ih => exact ih
  | group n r ih => exact ih

theorem over_word {w : List α} (h : ∀ c ∈ w, P c) : (Regex.word w).Over P := h

theorem over_opt (h : r.Over P) : (Regex.opt r).Over P := h

theorem over_words {l : List (List α)} (h : ∀ w ∈ l, ∀ c ∈ w, P c) : (words l).Over P := by
  induction l with
  | nil =>
    intro c hc
    cases hc
  | cons w rest ih =>
    rw [List.forall_mem_cons] at h
    cases rest with
    | nil => exact h.1
    | cons w' rest => exact ⟨h.1, ih h.2⟩

section ends

variable [DecidableEq α]

theorem Regex.Over.allOf (h : r.Over P) (he : e ∈ ends r s i) : AllOf P s i e.1 := by
  induction r generalizing i e with
  | word w =>
    obtain ⟨hw, rfl⟩ := mem_ends_word.1 he
    exact hw.allOf h
  | rep p least most =>
    obtain ⟨j, hall, -, -, rfl⟩ := mem_ends_rep.1 he
    exact hall.mono h
  | seq r r' ih ih' =>
    obtain ⟨f, hf, g, hg, rfl⟩ := mem_ends_seq.1 he
    exact (ih (e := f) h.1 hf).trans (ih' (e := g) h.2 hg)
  | alt r r' ih ih' => exact (mem_ends_alt.1 he).elim (ih h.1) (ih' h.2)
  | opt r ih =>
    rcases mem_ends_opt.1 he with he | rfl
    · exact ih h he
    · exact AllOf.refl P s i
  | group n r ih =>
    obtain ⟨f, hf, rfl⟩ := mem_ends_group.1 he
    exact ih (e := f) h hf

theorem least_le (he : e ∈ ends r s i) : i + r.least ≤ e.1 := by
  induction r generalizing i e with
  | word w =>
    obtain ⟨-, rfl⟩ := mem_ends_word.1 he
    exact Nat.le_refl _
  | rep p least most =>
    obtain ⟨j, -, hj, -, rfl⟩ := mem_ends_rep.1 he
    exact hj
  | seq r r' ih ih' =>
    obtain ⟨f, hf, g, hg, rfl⟩ := mem_ends_seq.1 he
    have h := ih hf
    have h' := ih' hg
    unfold Regex.least
    dsimp only
    omega
  | alt r r' ih ih' =>
    unfold Regex.least
    rcases mem_ends_alt.1 he with he | he
    · have h := ih he
      omega
    · have h := ih' he
      omega
  | opt r ih =>
    unfold Regex.least
    rcases mem_ends_opt.1 he with he | rfl
    · have h := ih he
      omega
    · exact Nat.le_refl _
  | group n r ih =>
    obtain ⟨f, hf, rfl⟩ := mem_ends_group.1 he
    exact ih (e := f) hf

/-- A repetition without a bound can begin at any letter before, as long as
the letters are of its kind. -/
theorem matches_from_before {least : Nat} (h : MatchesAt (.seq (.group n (.rep p least none)) r) s j)
    (hall : AllOf (fun c => p c = true) s i j) :
    MatchesAt (.seq (.group n (.rep p least none)) r) s i := by
  obtain ⟨e, he⟩ := List.exists_mem_of_ne_nil _ h
  simp only [mem_ends_seq, mem_ends_group, mem_ends_rep] at he
  obtain ⟨_, ⟨_, ⟨k, hk, hleast, -, rfl⟩, rfl⟩, g, hg, -⟩ := he
  have hmem : (g.1, [(n, i, k)] ++ g.2) ∈ ends (.seq (.group n (.rep p least none)) r) s i := by
    simp only [mem_ends_seq, mem_ends_group, mem_ends_rep]
    have hle := hall.1
    exact ⟨_, ⟨_, ⟨k, hall.trans hk, by omega, by simp, rfl⟩, rfl⟩, g, hg, rfl⟩
  exact List.ne_nil_of_mem hmem

/-! ## The matches of a scan -/

variable {m m' : Found}

/-- A match of the pattern. -/
def IsMatch (r : Regex α) (s : List α) (m : Found) : Prop := (m.stop, m.groups) ∈ ends r s m.start

theorem mem_scan (hm : m ∈ scan r s n i) : i ≤ m.start ∧ IsMatch r s m := by
  induction n generalizing i with
  | zero => cases hm
  | succ n ih =>
    unfold scan at hm
    split at hm
    · obtain ⟨hle, hmatch⟩ := ih hm
      exact ⟨by omega, hmatch⟩
    · rename_i e he
      rcases List.mem_cons.1 hm with rfl | hm
      · exact ⟨Nat.le_refl i, List.mem_of_mem_head? he⟩
      · obtain ⟨hle, hmatch⟩ := ih hm
        exact ⟨by omega, hmatch⟩

theorem scan_ordered (s : List α) (n i : Nat) :
    (scan r s n i).Pairwise fun m m' => m.stop ≤ m'.start := by
  induction n generalizing i with
  | zero => exact List.Pairwise.nil
  | succ n ih =>
    unfold scan
    split
    · exact ih (i + 1)
    · refine List.pairwise_cons.2 ⟨fun m' hm' => ?_, ih _⟩
      have hle := (mem_scan hm').1
      dsimp only
      omega

/-- A position at which the pattern matches lies in a match. -/
theorem scan_covers (hleast : 0 < r.least) (hk : i ≤ k) (hn : k < i + n) (h : MatchesAt r s k) :
    ∃ m ∈ scan r s n i, m.start ≤ k ∧ k < m.stop := by
  induction n generalizing i with
  | zero => omega
  | succ n ih =>
    unfold scan
    split
    · rename_i hnone
      have hik : i ≠ k := by
        rintro rfl
        exact h (List.head?_eq_none_iff.1 hnone)
      exact ih (by omega) (by omega)
    · rename_i e he
      have hlt := least_le (List.mem_of_mem_head? he)
      by_cases hin : k < e.1
      · exact ⟨_, List.mem_cons_self, hk, hin⟩
      · obtain ⟨m, hm, hcover⟩ := ih (i := max e.1 (i + 1)) (by omega) (by omega)
        exact ⟨m, List.mem_cons_of_mem _ hm, hcover⟩

theorem mem_finditer (hm : m ∈ finditer r s) : IsMatch r s m := (mem_scan hm).2

theorem finditer_ordered (r : Regex α) (s : List α) :
    (finditer r s).Pairwise fun m m' => m.stop ≤ m'.start := scan_ordered s _ _

theorem finditer_apart (r : Regex α) (s : List α) : (finditer r s).Pairwise Apart :=
  (finditer_ordered r s).imp Or.inl

theorem IsMatch.lt (hleast : 0 < r.least) (hm : IsMatch r s m) : m.start < m.stop := by
  have hle := least_le hm
  dsimp only at hle
  omega

theorem finditer_covers (hleast : 0 < r.least) (h : MatchesAt r s k) :
    ∃ m ∈ finditer r s, m.start ≤ k ∧ k < m.stop := by
  obtain ⟨e, he⟩ := List.exists_mem_of_ne_nil _ h
  have hlt := least_le he
  obtain ⟨c, hc, -⟩ := ((over_any r).allOf he).2 k (Nat.le_refl k) (by omega)
  have hk : k < s.length := (List.getElem?_eq_some_iff.1 hc).1
  exact scan_covers hleast (Nat.zero_le k) (by omega) h

end ends

end regex
