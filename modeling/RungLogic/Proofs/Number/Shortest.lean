import RungLogic.Proofs.Number.Reals

/-!
The shortest decimal of a real reads back as it. Grids are compared exactly, so whatever is taken
from a grid reads back; and the seventeenth grid is finer than the gap around the real.
-/

set_option autoImplicit false
set_option relaxedAutoImplicit false

namespace RungLogic.Number

variable {m : Nat} {e : Int}

def Decimal.value (c : Decimal) : ℚ := c.digits * 10 ^ c.exponent

private theorem compareGrid_iff (a : Nat) (e : Int) (d : Nat) (k : Int) :
    (compareGrid a e d k = .lt ↔ (a * 2 ^ e : ℚ) < 4 * (d * 10 ^ k)) ∧
      (compareGrid a e d k = .eq ↔ (a * 2 ^ e : ℚ) = 4 * (d * 10 ^ k)) ∧
      (compareGrid a e d k = .gt ↔ 4 * (d * 10 ^ k) < (a * 2 ^ e : ℚ)) := by
  have common : (0 : ℚ) < 10 ^ (-k).toNat * 2 ^ (-e).toNat := by positivity
  have left : (a * 2 ^ e : ℚ) * (10 ^ (-k).toNat * 2 ^ (-e).toNat) =
      (a * Nat.pow 2 e.toNat * Nat.pow 10 (-k).toNat : ℕ) := by
    rw [zpow_eq_div 2 (by norm_num) e, Nat.pow_eq, Nat.pow_eq]
    push_cast
    field_simp
  have right : (4 * (d * 10 ^ k) : ℚ) * (10 ^ (-k).toNat * 2 ^ (-e).toNat) =
      (4 * d * Nat.pow 10 k.toNat * Nat.pow 2 (-e).toNat : ℕ) := by
    rw [zpow_eq_div 10 (by norm_num) k, Nat.pow_eq, Nat.pow_eq]
    push_cast
    field_simp
  unfold compareGrid
  refine ⟨?_, ?_, ?_⟩
  · rw [Nat.compare_eq_lt, ← mul_lt_mul_iff_of_pos_right common, left, right, Nat.cast_lt]
  · rw [Nat.compare_eq_eq, ← mul_left_inj' common.ne', left, right, Nat.cast_inj]
  · rw [Nat.compare_eq_gt, ← mul_lt_mul_iff_of_pos_right common, left, right, Nat.cast_lt]

private theorem readsBack_iff (c : Decimal) : readsBack m e c = true ↔ Within m e c.value := by
  obtain ⟨lowLess, lowSame, -⟩ := compareGrid_iff (gapAround m e).lower e c.digits c.exponent
  obtain ⟨-, highSame, highMore⟩ := compareGrid_iff (gapAround m e).upper e c.digits c.exponent
  have closed : (gapAround m e).closed = true ↔ m % 2 = 0 := decide_eq_true_iff
  simp only [readsBack, Bool.and_eq_true, Bool.or_eq_true, decide_eq_true_eq, lowLess, lowSame,
    highSame, highMore, closed]
  constructor
  · rintro ⟨low, high⟩
    refine ⟨?_, ?_, ?_⟩
    · exact low.elim le_of_lt fun tie => tie.2.le
    · exact high.elim le_of_lt fun tie => tie.2.ge
    · rintro (tie | tie)
      · exact low.elim (fun less => absurd tie less.ne) And.left
      · exact high.elim (fun more => absurd tie more.ne) And.left
  · rintro ⟨low, high, even⟩
    refine ⟨?_, ?_⟩
    · exact low.lt_or_eq.imp_right fun tie => ⟨even (.inl tie), tie⟩
    · exact high.lt_or_eq.imp_right fun tie => ⟨even (.inr tie), tie.symm⟩

private theorem gridFloor_bounds (m : Nat) (e k : Int) :
    (gridFloor m e k * 10 ^ k : ℚ) ≤ m * 2 ^ e ∧
      (m * 2 ^ e : ℚ) < (gridFloor m e k + 1 : ℕ) * 10 ^ k := by
  have unit : (0 : ℚ) < 10 ^ k := zpow_pos (by norm_num) k
  have quotient : (m * 2 ^ e / 10 ^ k : ℚ) = (m * Nat.pow 2 e.toNat * Nat.pow 10 (-k).toNat : ℕ) /
      (Nat.pow 10 k.toNat * Nat.pow 2 (-e).toNat : ℕ) := by
    rw [zpow_eq_div 2 (by norm_num) e, zpow_eq_div 10 (by norm_num) k]
    simp only [Nat.pow_eq]
    push_cast
    field_simp
  have floor : gridFloor m e k = ⌊(m * 2 ^ e / 10 ^ k : ℚ)⌋₊ := by
    rw [quotient, Nat.floor_div_eq_div]
    rfl
  constructor
  · rw [← le_div_iff₀ unit, floor]
    exact Nat.floor_le (by positivity)
  · rw [← div_lt_iff₀ unit, floor]
    push_cast
    exact Nat.lt_floor_add_one _

private theorem readsBack_of_onGrid? {k : Int} {c : Decimal} (h : onGrid? m e k = some c) :
    readsBack m e c = true := by
  unfold onGrid? at h
  dsimp only at h
  split at h
  · cases h
  · cases h
    assumption
  · cases h
    assumption
  · split at h
    · cases h
      assumption
    · cases h
      assumption
    · cases h
      split <;> assumption

private theorem onGrid?_ne_none {k : Int} (positive : 0 < m)
    (fine : 4 * (10 : ℚ) ^ k < (gapAround m e).upper * 2 ^ e - (gapAround m e).lower * 2 ^ e) :
    onGrid? m e k ≠ none := by
  obtain ⟨below, above⟩ := gridFloor_bounds m e k
  obtain ⟨lower, upper⟩ := gapAround_lt positive e
  have one : readsBack m e ⟨gridFloor m e k, k⟩ = true ∨
      readsBack m e ⟨gridFloor m e k + 1, k⟩ = true := by
    rw [readsBack_iff, readsBack_iff]
    rcases lt_or_ge ((gapAround m e).lower * 2 ^ e : ℚ) (4 * (gridFloor m e k * 10 ^ k)) with h | h
    · refine .inl (.of_lt h ?_)
      show (4 * (gridFloor m e k * 10 ^ k) : ℚ) < _
      linarith
    · refine .inr (.of_lt ?_ ?_)
      · show _ < (4 * ((gridFloor m e k + 1 : ℕ) * 10 ^ k) : ℚ)
        linarith
      · show (4 * ((gridFloor m e k + 1 : ℕ) * 10 ^ k) : ℚ) < _
        push_cast
        linarith
  intro none
  unfold onGrid? at none
  dsimp only at none
  split at none
  · rename_i outsideBelow outsideAbove
    rw [outsideBelow, outsideAbove] at one
    exact one.elim Bool.noConfusion Bool.noConfusion
  · cases none
  · cases none
  · split at none <;> cases none

private theorem readsBack_of_firstGrid? {n : Nat} {k : Int} {c : Decimal}
    (h : firstGrid? m e n k = some c) : readsBack m e c = true := by
  induction n generalizing k with
  | zero => cases h
  | succ n ih =>
    rw [firstGrid?] at h
    split at h
    · rename_i found
      cases h
      exact readsBack_of_onGrid? found
    · exact ih h

private theorem onGrid?_of_firstGrid? {n : Nat} {k : Int} (h : firstGrid? m e (n + 1) k = none) :
    onGrid? m e (k - n) = none := by
  induction n generalizing k with
  | zero =>
    rw [firstGrid?] at h
    split at h
    · cases h
    · simpa using ‹_›
  | succ n ih =>
    rw [firstGrid?] at h
    split at h
    · cases h
    · have step := ih h
      rwa [show k - 1 - (n : Int) = k - (n + 1 : ℕ) by push_cast; ring] at step

/-- The fraction that stands for the logarithm of two is not too large for any exponent of a real.
-/
private theorem power_guess_le {t : Int} (low : -1074 ≤ t) (high : t ≤ 1023) :
    (10 : ℚ) ^ (t * 30103).fdiv 100000 ≤ 2 ^ t := by
  have large : ∀ n : Fin 1024, 10 ^ (n * 30103 / 100000 : ℕ) ≤ 2 ^ (n : ℕ) := by decide +kernel
  have small : ∀ n : Fin 1075, 2 ^ (n : ℕ) ≤ 10 ^ ((n * 30103 + 99999) / 100000 : ℕ) := by
    decide +kernel
  rcases le_or_gt 0 t with up | down
  · obtain ⟨n, rfl⟩ := Int.eq_ofNat_of_zero_le up
    have guess : ((n : Int) * 30103).fdiv 100000 = (n * 30103 / 100000 : ℕ) := by
      rw [Int.fdiv_eq_ediv_of_nonneg _ (by norm_num)]
      push_cast
      rfl
    rw [guess, zpow_natCast, zpow_natCast]
    exact_mod_cast large ⟨n, by omega⟩
  · obtain ⟨n, rfl⟩ : ∃ n : ℕ, t = -n := ⟨(-t).toNat, by omega⟩
    have guess : (-(n : Int) * 30103).fdiv 100000 = -((n * 30103 + 99999) / 100000 : ℕ) := by
      rw [Int.fdiv_eq_ediv_of_nonneg _ (by norm_num)]
      push_cast
      omega
    rw [guess, zpow_neg, zpow_neg, zpow_natCast, zpow_natCast,
      inv_le_inv₀ (by positivity) (by positivity)]
    exact_mod_cast small ⟨n, by omega⟩

private theorem leadingExponent_le (canonical : Canonical m e) (below : e ≤ 971) :
    (10 : ℚ) ^ leadingExponent m e ≤ m * 2 ^ e := by
  unfold leadingExponent
  dsimp only
  split
  · have bits : m.log2 < 53 := (Nat.log2_lt canonical.positive.ne').mpr canonical.bits
    have least := canonical.least
    have size : (2 : ℚ) ^ ((m.log2 : Int) + e) ≤ m * 2 ^ e := by
      rw [zpow_add₀ (by norm_num), zpow_natCast]
      refine mul_le_mul_of_nonneg_right ?_ (by positivity)
      exact_mod_cast Nat.log2_self_le canonical.positive.ne'
    exact (power_guess_le (by omega) (by omega)).trans size
  · rename_i some
    have one : (1 : ℚ) ≤ gridFloor m e (((m.log2 + e) * 30103).fdiv 100000 + 1) := by
      exact_mod_cast Nat.pos_of_ne_zero some
    have unit : (0 : ℚ) < 10 ^ ((((m.log2 : Int) + e) * 30103).fdiv 100000 + 1) := by positivity
    exact (le_mul_of_one_le_left unit.le one).trans (gridFloor_bounds m e _).1

/-- The seventeenth grid is finer than the gap. -/
private theorem grid_fine (canonical : Canonical m e) {k : Int} (leading : (10 : ℚ) ^ k ≤ m * 2 ^ e) :
    4 * (10 : ℚ) ^ (k - 16) < (gapAround m e).upper * 2 ^ e - (gapAround m e).lower * 2 ^ e := by
  have unit : (0 : ℚ) < 2 ^ e := zpow_pos (by norm_num) e
  have scaled : (10 : ℚ) ^ (k - 16) = 10 ^ k / 10 ^ 16 := by
    rw [zpow_sub₀ (by norm_num)]
    norm_num
  have positive := canonical.positive
  have bits := canonical.bits
  have wide : 4 * m + (gapAround m e).lower * 10 ^ 16 < (gapAround m e).upper * 10 ^ 16 := by
    simp only [gapAround]
    split
    · rename_i power
      -- Below a power of two the gap is narrower, but the mantissa is the least one.
      have least : m = 2 ^ 52 := (decide_eq_true_iff.mp (Bool.and_eq_true_iff.mp power).1)
      omega
    · omega
  have wide' : (4 * m + (gapAround m e).lower * 10 ^ 16 : ℚ) < (gapAround m e).upper * 10 ^ 16 := by
    exact_mod_cast wide
  rw [scaled, ← sub_mul]
  nlinarith

private theorem stripZeros_value (n : Nat) (c : Decimal) : (stripZeros n c).value = c.value := by
  induction n generalizing c with
  | zero => rfl
  | succ n ih =>
    rw [stripZeros]
    split
    · rename_i zero
      have digits : c.digits = c.digits / 10 * 10 := by omega
      rw [ih]
      show ((c.digits / 10 : ℕ) * 10 ^ (c.exponent + 1) : ℚ) = c.digits * 10 ^ c.exponent
      rw [zpow_add_one₀ (by norm_num)]
      conv_rhs => rw [digits]
      push_cast
      ring
    · rfl

/-- The shortest decimal of a real lies in the gap around it. -/
theorem within_shortest (canonical : Canonical m e) (below : e ≤ 971) :
    Within m e (shortest m e).value := by
  rw [shortest, stripZeros_value]
  rcases found : firstGrid? m e 17 (leadingExponent m e) with _ | c
  · have none := onGrid?_of_firstGrid? found
    have fine := grid_fine canonical (leadingExponent_le canonical below)
    exact absurd none (onGrid?_ne_none canonical.positive fine)
  · exact (readsBack_iff c).mp (readsBack_of_firstGrid? found)

end RungLogic.Number
