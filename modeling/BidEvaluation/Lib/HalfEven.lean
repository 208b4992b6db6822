-- Rounding to the nearest integer, where a tie goes to the even neighbour,
-- and from it rounding to a number of decimal places.
import Mathlib.Algebra.Order.Floor.Ring
import Mathlib.Algebra.Ring.Int.Parity
import Mathlib.Algebra.Order.Field.Basic
import Mathlib.Tactic.Linarith

namespace half_even

variable {α : Type} [Field α] [LinearOrder α] [IsStrictOrderedRing α] [FloorRing α]

/-! ## Integers -/

/-- Whether a number rounds to `n` or below it. -/
def Down (x : α) (n : Int) : Prop := x < n + 1 / 2 ∨ (x = n + 1 / 2 ∧ Even n)

instance (x : α) (n : Int) : Decidable (Down x n) := by
  unfold Down
  infer_instance

def round (x : α) : Int := if Down x ⌊x⌋ then ⌊x⌋ else ⌊x⌋ + 1

theorem round_le_iff (x : α) (n : Int) : round x ≤ n ↔ Down x n := by
  have hfloor : (⌊x⌋ : α) ≤ x := Int.floor_le x
  have hnext : x < ⌊x⌋ + 1 := Int.lt_floor_add_one x
  unfold round
  by_cases hn : ⌊x⌋ < n
  · -- the next integer is no larger than `n`
    have hcast : (⌊x⌋ : α) + 1 ≤ n := by exact_mod_cast hn
    have hdown : Down x n := .inl (by linarith)
    constructor
    · exact fun _ => hdown
    · intro _
      split <;> omega
  · rcases (not_lt.1 hn).lt_or_eq with hlt | rfl
    · have hcast : (n : α) + 1 ≤ ⌊x⌋ := by exact_mod_cast hlt
      have hup : ¬Down x n := by
        rintro (hx | ⟨hx, -⟩)
        · linarith
        · linarith
      constructor
      · intro hle
        split at hle <;> omega
      · exact fun hdown => absurd hdown hup
    · split
      · rename_i hdown
        exact ⟨fun _ => hdown, fun _ => le_refl _⟩
      · rename_i hup
        exact ⟨fun hle => absurd hle (by omega), fun hdown => absurd hdown hup⟩

omit [IsStrictOrderedRing α] in
theorem floor_le_round (x : α) : ⌊x⌋ ≤ round x := by
  unfold round
  split <;> omega

omit [IsStrictOrderedRing α] in
theorem round_nonneg {x : α} (h : 0 ≤ x) : 0 ≤ round x :=
  (Int.floor_nonneg.2 h).trans (floor_le_round x)

/-- A larger number rounds to no less. -/
theorem round_mono {x y : α} (h : x ≤ y) : round x ≤ round y := by
  rw [round_le_iff]
  rcases (round_le_iff y (round y)).1 (le_refl _) with hlt | ⟨heq, heven⟩
  · exact .inl (lt_of_le_of_lt h hlt)
  · rcases (heq ▸ h).lt_or_eq with hlt | hsame
    · exact .inl hlt
    · exact .inr ⟨hsame, heven⟩

/-! ## Decimal places -/

/-- A number rounded to some decimal places. -/
def to_places (places : Nat) (x : α) : α := (round (x * 10 ^ places) : α) / 10 ^ places

theorem to_places_nonneg (places : Nat) {x : α} (h : 0 ≤ x) : 0 ≤ to_places places x := by
  have hpow : (0 : α) < 10 ^ places := pow_pos (by norm_num) places
  have hround : 0 ≤ round (x * 10 ^ places) := round_nonneg (mul_nonneg h hpow.le)
  unfold to_places
  exact div_nonneg (by exact_mod_cast hround) hpow.le

theorem to_places_mono (places : Nat) {x y : α} (h : x ≤ y) : to_places places x ≤ to_places places y := by
  have hpow : (0 : α) < 10 ^ places := pow_pos (by norm_num) places
  have hround : round (x * 10 ^ places) ≤ round (y * 10 ^ places) :=
    round_mono (mul_le_mul_of_nonneg_right h hpow.le)
  unfold to_places
  apply div_le_div_of_nonneg_right _ hpow.le
  exact_mod_cast hround

/-- A rounded number is within a bound when the number rounds down to the
last place of the bound. -/
theorem to_places_le_iff (places : Nat) (x bound : α) :
    to_places places x ≤ bound ↔ Down (x * 10 ^ places) ⌊bound * 10 ^ places⌋ := by
  have hpow : (0 : α) < 10 ^ places := pow_pos (by norm_num) places
  unfold to_places
  rw [div_le_iff₀ hpow, ← round_le_iff, Int.le_floor]

end half_even
