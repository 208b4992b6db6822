-- The decimal digits of Unicode 14, in runs of ten from each zero on. A
-- pattern that asks for a digit takes any of them, and `int` reads them all.
import Mathlib.Data.List.Basic

namespace decimal_digits

def zeros : List Nat :=
  [48, 1632, 1776, 1984, 2406, 2534, 2662, 2790, 2918, 3046, 3174, 3302, 3430, 3558, 3664, 3792, 3872,
    4160, 4240, 6112, 6160, 6470, 6608, 6784, 6800, 6992, 7088, 7232, 7248, 42528, 43216, 43264, 43472,
    43504, 43600, 44016, 65296, 66720, 68912, 69734, 69872, 69942, 70096, 70384, 70736, 70864, 71248,
    71360, 71472, 71904, 72016, 72784, 73040, 73120, 92768, 92864, 93008, 120782, 120792, 120802, 120812,
    120822, 123200, 123632, 125264, 130032]

/-- The value of a digit. -/
def digitValue (c : Char) : Option Nat :=
  (zeros.find? (fun z => z ≤ c.toNat ∧ c.toNat < z + 10)).map (fun z => c.toNat - z)

def isDecimal (c : Char) : Bool := (digitValue c).isSome

/-- The number that digits write, if there is one. -/
def numberValue (letters : List Char) : Option Nat :=
  if letters = [] then none
  else letters.foldlM (fun n c => (digitValue c).map (fun d => 10 * n + d)) 0

theorem digitValue_of_isDigit {c : Char} (h : c.isDigit = true) : digitValue c = some (c.toNat - 48) := by
  unfold Char.isDigit at h
  rw [Bool.and_eq_true, decide_eq_true_eq, decide_eq_true_eq] at h
  have hlow : 48 ≤ c.toNat := h.1
  have hhigh : c.toNat ≤ 57 := h.2
  unfold digitValue zeros
  rw [List.find?_cons_of_pos]
  · rfl
  · rw [decide_eq_true_eq]
    omega

/-- A digit is one of the ten after a zero. -/
theorem exists_zero {c : Char} (h : isDecimal c = true) :
    ∃ z ∈ zeros, ∃ d < 10, c = Char.ofNat (z + d) := by
  unfold isDecimal digitValue at h
  rw [Option.isSome_map, List.find?_isSome] at h
  obtain ⟨z, hz, hc⟩ := h
  rw [decide_eq_true_eq] at hc
  refine ⟨z, hz, c.toNat - z, by omega, ?_⟩
  rw [Nat.add_sub_cancel' hc.1, Char.ofNat_toNat]

/-- What no digit after a zero is, no digit is. -/
theorem not_of_isDecimal {f : Char → Bool} (hf : ∀ z ∈ zeros, ∀ d < 10, f (Char.ofNat (z + d)) = false)
    {c : Char} (h : isDecimal c = true) : f c = false := by
  obtain ⟨z, hz, d, hd, rfl⟩ := exists_zero h
  exact hf z hz d hd

theorem fold_digits (letters : List Char) (h : ∀ c ∈ letters, c.isDigit = true) (n : Nat) :
    letters.foldlM (fun n c => (digitValue c).map (fun d => 10 * n + d)) n =
      some (Nat.ofDigitChars 10 letters n) := by
  induction letters generalizing n with
  | nil => rfl
  | cons c rest ih =>
    rw [List.forall_mem_cons] at h
    rw [List.foldlM_cons, digitValue_of_isDigit h.1, Option.map_some]
    exact (ih h.2 _).trans (by rw [Nat.ofDigitChars_cons]; rfl)

/-- A number is read back from its digits. -/
theorem numberValue_toDigits (n : Nat) : numberValue (Nat.toDigits 10 n) = some n := by
  have hdigits : ∀ c ∈ Nat.toDigits 10 n, c.isDigit = true :=
    fun c hc => Nat.isDigit_of_mem_toDigits (by decide) (by decide) hc
  unfold numberValue
  rw [if_neg Nat.toDigits_ne_nil, fold_digits _ hdigits, Nat.ofDigitChars_ten_toDigits]

end decimal_digits
