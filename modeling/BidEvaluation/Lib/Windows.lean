-- Windows of a list. In a list with a period a window reads the same when it
-- is moved by periods, and a window that reads the same carries a period on.
import BidEvaluation.Lib.Occurrences
import Mathlib.Data.List.PeriodicityLemma

open occurrences

namespace windows

variable {α : Type} {whole x y : List α} {p q b n e : Nat}

/-- `n` elements from `b` on. -/
def window (whole : List α) (b n : Nat) : List α := (whole.drop b).take n

theorem length_window (h : b + n ≤ whole.length) : (window whole b n).length = n := by
  unfold window
  rw [List.length_take, List.length_drop]
  omega

theorem window_get (i : Nat) (h : i < n) : (window whole b n)[i]? = whole[b + i]? := by
  unfold window
  rw [List.getElem?_take_of_lt h, List.getElem?_drop]

/-- The window that reaches the end of a first part. -/
theorem window_of_start (h : x <+: whole) (hb : b ≤ x.length) :
    window whole b (x.drop b).length = x.drop b := by
  obtain ⟨rest, rfl⟩ := h
  unfold window
  rw [List.drop_append_of_le_length hb]
  exact List.take_left

theorem window_starts (whole : List α) (b n : Nat) : window whole b n <+: whole.drop b :=
  List.take_prefix _ _

/-! ## Periods -/

theorem get_same (hp : whole.HasPeriod p) (hdvd : p ∣ q) {i : Nat} (h : i + q < whole.length) :
    whole[i + q]? = whole[i]? := by
  obtain ⟨k, rfl⟩ := hdvd
  rw [← hp.getElem?_mod p (i + p * k) whole h, Nat.add_mul_mod_self_left]
  exact hp.getElem?_mod p i whole (by omega)

theorem window_moved (hp : whole.HasPeriod p) (hdvd : p ∣ q) (h : b + q + n ≤ whole.length) :
    window whole (b + q) n = window whole b n := by
  apply List.ext_getElem?
  intro i
  by_cases hi : i < n
  · rw [window_get i hi, window_get i hi, Nat.add_right_comm]
    exact get_same hp hdvd (by omega)
  · have hlength : (window whole (b + q) n).length = n := length_window (by omega)
    have hlength' : (window whole b n).length = n := length_window (by omega)
    rw [List.getElem?_eq_none (by omega), List.getElem?_eq_none (by omega)]

theorem period_of_start (hp : (whole.take e).HasPeriod p) (hle : b ≤ e) : (whole.take b).HasPeriod p :=
  hp.infix (List.take_prefix_take_left hle).isInfix

theorem period_snoc (hp : (whole.take e).HasPeriod p) (he : e < whole.length) (hle : p ≤ e)
    (h : whole[e]? = whole[e - p]?) : (whole.take (e + 1)).HasPeriod p := by
  rw [List.hasPeriod_iff_getElem?] at hp ⊢
  rw [List.length_take, Nat.min_eq_left (by omega)] at hp ⊢
  intro i hi
  rw [List.getElem?_take_of_lt (by omega), List.getElem?_take_of_lt (by omega)]
  by_cases hlast : i + p = e
  · rw [hlast, h, ← hlast, Nat.add_sub_cancel]
  · have hbefore := hp i (by omega)
    rwa [List.getElem?_take_of_lt (by omega), List.getElem?_take_of_lt (by omega)] at hbefore

/-- A window that reads as the one some periods before it carries the period
on to its end. -/
theorem period_extends (hp : (whole.take b).HasPeriod p) (hdvd : p ∣ q) (hq : 0 < q) (hle : q ≤ b)
    (hinside : b + n ≤ whole.length) (h : window whole b n = window whole (b - q) n) :
    (whole.take (b + n)).HasPeriod p := by
  rw [List.hasPeriod_iff_forall_getElem?_mod] at hp ⊢
  rw [List.length_take, Nat.min_eq_left (by omega)] at hp ⊢
  have hmod : ∀ i, i % p ≤ i := fun i => Nat.mod_le i p
  intro i
  -- By strong induction: what is behind `b` stands `q` places before.
  induction i using Nat.strong_induction_on with
  | _ i ih =>
    intro hi
    have hmod_i := hmod i
    rw [List.getElem?_take_of_lt hi, List.getElem?_take_of_lt (by omega)]
    by_cases hbefore : i < b
    · have hfirst := hp i hbefore
      rwa [List.getElem?_take_of_lt hbefore, List.getElem?_take_of_lt (by omega)] at hfirst
    · obtain ⟨j, rfl⟩ := Nat.exists_eq_add_of_le (Nat.le_of_not_lt hbefore)
      have hread : (window whole b n)[j]? = (window whole (b - q) n)[j]? := by rw [h]
      rw [window_get j (by omega), window_get j (by omega)] at hread
      have hearlier := ih (b - q + j) (by omega) (by omega)
      have hmod_j := hmod (b - q + j)
      rw [List.getElem?_take_of_lt (by omega), List.getElem?_take_of_lt (by omega)] at hearlier
      obtain ⟨k, rfl⟩ := hdvd
      have hsame : (b - p * k + j) % p = (b + j) % p := by
        rw [← Nat.add_mul_mod_self_left (b - p * k + j) p k]
        congr 1
        omega
      rw [hread, hearlier, hsame]

/-! ## Trimming -/

section trim

variable {blank : α → Bool}

/-- The list is empty, or its last element is not blank. -/
def EndsSolid (blank : α → Bool) (x : List α) : Prop := ∀ c ∈ x.getLast?, blank c = false

theorem EndsSolid.append_right {x y : List α} (h : EndsSolid blank y) (hy : y ≠ []) :
    EndsSolid blank (x ++ y) := by
  unfold EndsSolid at h ⊢
  rw [List.getLast?_append_of_ne_nil _ hy]
  exact h

theorem EndsSolid.drop (h : EndsSolid blank x) (hb : b < x.length) : EndsSolid blank (x.drop b) := by
  unfold EndsSolid at h ⊢
  rw [List.getLast?_drop, if_neg (by omega)]
  exact h

theorem ends_of_solid (h : Solid blank x) : EndsSolid blank x := by
  intro c hc
  rw [List.getLast?_eq_some_getLast h.nonempty] at hc
  cases hc
  exact h.last

theorem no_lead_of_solid (h : Solid blank x) : x.takeWhile blank = [] := by
  obtain ⟨c, rest, rfl⟩ := List.exists_cons_of_ne_nil h.nonempty
  exact List.takeWhile_cons_of_neg (by simpa using h.first)

theorem trim_of_ends (h : EndsSolid blank x) : trim blank x = x.dropWhile blank := by
  unfold trim
  rw [List.rdropWhile_eq_self_iff]
  intro hlong
  have hlast : x.getLast? = some ((x.dropWhile blank).getLast hlong) := by
    rw [← List.getLast?_eq_some_getLast hlong]
    conv_lhs => rw [← List.takeWhile_append_dropWhile (p := blank) (l := x)]
    exact List.getLast?_append_of_ne_nil _ hlong
  simp [h _ hlast]

theorem length_lead_add (blank : α → Bool) (x : List α) :
    (x.takeWhile blank).length + (x.dropWhile blank).length = x.length := by
  rw [← List.length_append, List.takeWhile_append_dropWhile]

theorem lead_lt (h : EndsSolid blank x) (hx : x ≠ []) : (x.takeWhile blank).length < x.length := by
  have hpart : x.takeWhile blank <+: x := List.takeWhile_prefix blank
  refine lt_of_le_of_ne hpart.length_le fun hall => ?_
  have hlast := h _ (List.getLast?_eq_some_getLast hx)
  have hblank := List.takeWhile_eq_self_iff.1 (hpart.eq_of_length hall) _ (List.getLast_mem hx)
  rw [hlast] at hblank
  cases hblank

/-- What is added behind a solid end does not change the blanks in front. -/
theorem lead_append (h : EndsSolid blank x) (hx : x ≠ []) (y : List α) :
    (x ++ y).takeWhile blank = x.takeWhile blank := by
  have hlt := lead_lt h hx
  rw [List.takeWhile_append, if_neg (by omega)]

/-- Blanks in front are trimmed. -/
theorem trim_behind {w : List α} (hw : ∀ c ∈ w, blank c = true) (y : List α) :
    trim blank (w ++ y) = trim blank y := by
  unfold trim
  rw [List.dropWhile_append_of_pos hw]

theorem length_trim_le (blank : α → Bool) (x : List α) : (trim blank x).length ≤ x.length :=
  le_trans (List.rdropWhile_prefix blank _).length_le (List.dropWhile_suffix blank).length_le

theorem of_mem_trim {c : α} (h : c ∈ trim blank x) : c ∈ x :=
  (List.dropWhile_suffix blank).subset ((List.rdropWhile_prefix blank _).subset h)

/-- What is not blank is not trimmed. -/
theorem mem_trim {c : α} (h : c ∈ x) (hc : blank c = false) : c ∈ trim blank x := by
  have hkept : ∀ {l : List α}, c ∈ l → c ∈ l.dropWhile blank := by
    intro l hin
    rw [← List.takeWhile_append_dropWhile (p := blank) (l := l)] at hin
    rcases List.mem_append.1 hin with hin | hin
    · rw [List.mem_takeWhile_imp hin] at hc
      cases hc
    · exact hin
  unfold trim List.rdropWhile
  exact List.mem_reverse.2 (hkept (List.mem_reverse.2 (hkept h)))

/-- A window that starts with blanks is shorter by them when it is trimmed. -/
theorem length_trim_window {w : List α} (hw : ∀ c ∈ w, blank c = true) (h : w <+: whole.drop b) :
    (trim blank (window whole b n)).length ≤ n - w.length := by
  obtain ⟨rest, hrest⟩ := h
  unfold window
  rw [← hrest, List.take_append]
  rw [trim_behind fun c hc => hw c (List.mem_of_mem_take hc)]
  refine le_trans (length_trim_le blank _) ?_
  exact List.length_take_le _ _

/-- Two texts that are trimmed to one are the same when they are equally long,
one ends solid and the other starts with its blanks. -/
theorem eq_of_trim (hends : EndsSolid blank x) (hlead : x.takeWhile blank <+: y) (hlength : x.length = y.length)
    (htrim : trim blank x = trim blank y) : x = y := by
  obtain ⟨rest, rfl⟩ := hlead
  have hblank : ∀ c ∈ x.takeWhile blank, blank c = true := fun c hc => List.mem_takeWhile_imp hc
  rw [trim_of_ends hends, trim_behind hblank] at htrim
  have hsplit := length_lead_add blank x
  rw [List.length_append] at hlength
  have hpart : trim blank rest <:+: rest := by
    unfold trim
    exact (List.rdropWhile_prefix blank _).isInfix.trans (List.dropWhile_suffix blank).isInfix
  have hsame : trim blank rest = rest := by
    apply hpart.eq_of_length
    rw [← htrim]
    omega
  rw [hsame] at htrim
  rw [← htrim, List.takeWhile_append_dropWhile]

end trim

/-! ## Joined parts -/

theorem intercalate_concat (sep : List α) (parts : List (List α)) (part : List α) :
    sep.intercalate (parts ++ [part]) =
      if parts = [] then part else sep.intercalate parts ++ sep ++ part := by
  induction parts with
  | nil => simp
  | cons first rest ih =>
    rw [if_neg (by simp)]
    rcases rest with _ | ⟨second, rest⟩
    · simp
    · rw [List.cons_append, List.cons_append, List.intercalate_cons_cons, ← List.cons_append, ih,
        if_neg (by simp), List.intercalate_cons_cons]
      simp only [List.append_assoc]

end windows
