import Mathlib
import RungLogic.Number.Shortest

/-!
Rounding to reals. The operations on reals round an exact value, of which they keep a mantissa and
two further bits. A value inside the gap around a real is rounded to that real.
-/

set_option autoImplicit false
set_option relaxedAutoImplicit false

namespace RungLogic.Number

open Float.Model Float.Model.UnpackedFloat

/-- The mantissas and exponents that reals have: the mantissa has fifty-three bits, or the exponent
is the least one. -/
structure Canonical (m : Nat) (e : Int) : Prop where
  positive : 0 < m
  bits : m < 2 ^ 53
  least : -1074 ≤ e
  full : 2 ^ 52 ≤ m ∨ e = -1074

/-- What a mantissa with its round bit and its sticky bit says of a number. -/
def Represents (em : ExtendedMantissa) (x : ℚ) : Prop :=
  match em.roundBit, em.stickyBit with
  | false, false => x = em.mantissa
  | false, true => em.mantissa < x ∧ x < em.mantissa + 1 / 2
  | true, false => x = em.mantissa + 1 / 2
  | true, true => em.mantissa + 1 / 2 < x ∧ x < em.mantissa + 1

namespace Represents

variable {em : ExtendedMantissa} {x : ℚ}

private theorem floor (h : Represents em x) : em.mantissa ≤ x ∧ x < em.mantissa + 1 := by
  obtain ⟨m, r, s⟩ := em
  cases r <;> cases s <;> simp only [Represents] at h ⊢ <;> constructor <;> linarith

private theorem shiftRightOne (h : Represents em x) : Represents em.shiftRightOne (x / 2) := by
  obtain ⟨m, r, s⟩ := em
  rcases Nat.even_or_odd' m with ⟨q, rfl | rfl⟩
  · have shifted : (⟨2 * q, r, s⟩ : ExtendedMantissa).shiftRightOne = ⟨q, false, r || s⟩ := by
      simp [ExtendedMantissa.shiftRightOne]
    rw [shifted]
    cases r <;> cases s <;> simp only [Represents, Bool.or_self, Bool.or_true,
      Bool.or_false, Nat.cast_mul, Nat.cast_ofNat] at h ⊢ <;>
      first | linarith | exact ⟨by linarith, by linarith⟩
  · have half : (2 * q + 1) / 2 = q := by omega
    have shifted : (⟨2 * q + 1, r, s⟩ : ExtendedMantissa).shiftRightOne = ⟨q, true, r || s⟩ := by
      simp [ExtendedMantissa.shiftRightOne, half]
    rw [shifted]
    cases r <;> cases s <;>
      simp only [Represents, Bool.or_self, Bool.or_true, Bool.or_false, Nat.cast_mul, Nat.cast_ofNat,
        Nat.cast_add, Nat.cast_one] at h ⊢ <;>
      first | linarith | exact ⟨by linarith, by linarith⟩

private theorem shiftRight (h : Represents em x) (k : Nat) : Represents (em >>> k) (x / 2 ^ k) := by
  show Represents (k.repeat ExtendedMantissa.shiftRightOne em) _
  induction k with
  | zero => simpa [Nat.repeat] using h
  | succ k ih =>
    have half : x / 2 ^ (k + 1) = x / 2 ^ k / 2 := by rw [pow_succ, div_mul_eq_div_div]
    rw [Nat.repeat, half]
    exact ih.shiftRightOne

end Represents

/-- What is rounded to a mantissa: all that is nearer to it than to its neighbours, and for an even
mantissa also the two midpoints. -/
structure Near (m : Nat) (x : ℚ) : Prop where
  lower : m - 1 / 2 ≤ x
  upper : x ≤ m + 1 / 2
  even : x = m - 1 / 2 ∨ x = m + 1 / 2 → m % 2 = 0

private theorem Represents.roundedMantissa {em : ExtendedMantissa} {x : ℚ} (h : Represents em x) {m : Nat}
    (near : Near m x) : em.roundedMantissa = m := by
  obtain ⟨low, high⟩ := h.floor
  have above : em.mantissa ≤ m := by
    have : (em.mantissa : ℚ) < m + 1 := by linarith [near.upper]
    exact Nat.lt_succ_iff.mp (by exact_mod_cast this)
  have below : m ≤ em.mantissa + 1 := by
    have : (m : ℚ) < em.mantissa + 1 + 1 := by linarith [near.lower]
    exact Nat.lt_succ_iff.mp (by exact_mod_cast this)
  obtain ⟨q, r, s⟩ := em
  -- The nearest integer is the floor or the one above it, and in the middle the even one of them.
  rcases Nat.eq_or_lt_of_le above with same | less
  · obtain rfl : q = m := same
    have upper := near.upper
    have even := near.even
    cases r <;> cases s <;> simp only [Represents] at h
    · rfl
    · rfl
    · have tie : q % 2 = 0 := even (.inr h)
      show q + q % 2 = q
      rw [tie, Nat.add_zero]
    · linarith
  · obtain rfl : m = q + 1 := by
      have : q < m := less
      have : m ≤ q + 1 := below
      omega
    have lower := near.lower
    have even := near.even
    push_cast at lower even
    cases r <;> cases s <;> simp only [Represents] at h
    · linarith
    · linarith
    · have tie : (q + 1) % 2 = 0 := even (.inl (by linarith))
      show q + q % 2 = q + 1
      omega
    · rfl

theorem targetExponent_eq (m : Nat) (e : Int) :
    Format.binary64.targetExponent (totalExponent m e) = max (m.log2 + e - 52) (-1074) := by
  have bits : (Format.binary64.mantissaBits : Int) = 53 := rfl
  have least : Format.binary64.minExponent = -1074 := rfl
  rw [Format.targetExponent, totalExponent, bits, least]
  congr 1
  omega

/-- Rounding in its three steps: a shift, the rounding of the mantissa, and a shift for its carry. -/
private theorem roundWithAccuracy_eq {m₁ m₂ m k k₂ : Nat} {e₁ : Int} {acc : Accuracy} (s : Sign)
    (first : (max (m₁.log2 + e₁ - 52) (-1074) - e₁).toNat = k)
    (rounded : (ExtendedMantissa.ofMantissaAndAccuracy m₁ acc >>> k).roundedMantissa = m₂)
    (second : (max (m₂.log2 + (e₁ + k) - 52) (-1074) - (e₁ + k)).toNat = k₂)
    (carried : (ExtendedMantissa.ofMantissaAndAccuracy m₂ .exact >>> k₂).mantissa = m)
    (positive : 0 < m) :
    roundWithAccuracy .binary64 s m₁ e₁ acc = .finite s m (e₁ + k + k₂) positive := by
  have nonzero : m ≠ 0 := by omega
  simp only [roundWithAccuracy, shiftToTargetExponent, shiftToExponent, targetExponent_eq, first,
    rounded, second, carried, dif_neg nonzero]

/-- The values that read back as `m * 2 ^ e`. -/
structure Within (m : Nat) (e : Int) (v : ℚ) : Prop where
  lower : (gapAround m e).lower * (2 : ℚ) ^ e ≤ 4 * v
  upper : 4 * v ≤ (gapAround m e).upper * (2 : ℚ) ^ e
  closed : (gapAround m e).lower * (2 : ℚ) ^ e = 4 * v ∨
    4 * v = (gapAround m e).upper * (2 : ℚ) ^ e → m % 2 = 0

theorem Within.of_lt {m : Nat} {e : Int} {v : ℚ}
    (lower : (gapAround m e).lower * (2 : ℚ) ^ e < 4 * v)
    (upper : 4 * v < (gapAround m e).upper * (2 : ℚ) ^ e) : Within m e v := by
  refine ⟨lower.le, upper.le, ?_⟩
  rintro (tie | tie)
  · exact absurd tie lower.ne
  · exact absurd tie upper.ne

theorem gapAround_lt {m : Nat} (positive : 0 < m) (e : Int) :
    (gapAround m e).lower * (2 : ℚ) ^ e < 4 * (m * 2 ^ e) ∧
      4 * (m * 2 ^ e) < (gapAround m e).upper * (2 : ℚ) ^ e := by
  have unit : (0 : ℚ) < 2 ^ e := zpow_pos (by norm_num) e
  have lower : (gapAround m e).lower < 4 * m := by
    simp only [gapAround]
    split <;> omega
  have lower' : ((gapAround m e).lower : ℚ) < 4 * m := by exact_mod_cast lower
  have upper : (4 * m : ℚ) < (gapAround m e).upper := by
    simp [gapAround]
  constructor <;> nlinarith

theorem within_self {m : Nat} (positive : 0 < m) (e : Int) : Within m e (m * 2 ^ e) :=
  .of_lt (gapAround_lt positive e).1 (gapAround_lt positive e).2

private theorem Within.near {m : Nat} {e : Int} {u : ℚ} (positive : 0 < m) (h : Within m e (u * 2 ^ e)) :
    Near m u := by
  have unit : (0 : ℚ) < 2 ^ e := zpow_pos (by norm_num) e
  have lower : ((gapAround m e).lower : ℚ) ≤ 4 * u := by
    refine le_of_mul_le_mul_right ?_ unit
    linarith [h.lower]
  have upper : 4 * u ≤ ((gapAround m e).upper : ℚ) := by
    refine le_of_mul_le_mul_right ?_ unit
    linarith [h.upper]
  have top : ((gapAround m e).upper : ℚ) = 4 * m + 2 := by
    simp [gapAround]
  have bottom : (4 * m - 2 : ℚ) ≤ (gapAround m e).lower := by
    have : 4 * m ≤ (gapAround m e).lower + 2 := by
      simp only [gapAround]
      split <;> omega
    have : (4 * m : ℚ) ≤ (gapAround m e).lower + 2 := by exact_mod_cast this
    linarith
  refine ⟨by linarith, by linarith, ?_⟩
  rintro (tie | tie)
  · refine h.closed (.inl ?_)
    have same : ((gapAround m e).lower : ℚ) = 4 * u := by linarith
    rw [same]
    ring
  · refine h.closed (.inr ?_)
    have same : 4 * u = ((gapAround m e).upper : ℚ) := by linarith
    rw [← same]
    ring

private theorem log2_le {m b : Nat} (h : m < 2 ^ (b + 1)) : m.log2 ≤ b := by
  rcases Nat.eq_zero_or_pos m with rfl | positive
  · simp
  · exact Nat.lt_succ_iff.mp ((Nat.log2_lt positive.ne').mpr h)

private theorem le_log2 {m b : Nat} (h : 2 ^ b ≤ m) : b ≤ m.log2 :=
  (Nat.le_log2 (Nat.pow_pos (by decide) |>.trans_le h).ne').mpr h

private theorem log2_eq {em : ExtendedMantissa} {x : ℚ} (rep : Represents em x) {b : Nat} :
    (x < 2 ^ (b + 1) → em.mantissa.log2 ≤ b) ∧ (2 ^ b ≤ x → b ≤ em.mantissa.log2) := by
  obtain ⟨low, high⟩ := rep.floor
  constructor
  · intro h
    have : (em.mantissa : ℚ) < 2 ^ (b + 1) := lt_of_le_of_lt low h
    exact log2_le (by exact_mod_cast this)
  · intro h
    have : (2 ^ b : ℚ) < em.mantissa + 1 := lt_of_le_of_lt h high
    exact le_log2 (Nat.lt_succ_iff.mp (by exact_mod_cast this))

private theorem log2_shifted {m₁ : Nat} {acc : Accuracy} {x : ℚ}
    (rep : Represents (.ofMantissaAndAccuracy m₁ acc) x) (b j : Nat) :
    (x / 2 ^ j < 2 ^ (b + 1) → m₁.log2 ≤ b + j) ∧ (2 ^ b ≤ x / 2 ^ j → b + j ≤ m₁.log2) := by
  have mantissa : (ExtendedMantissa.ofMantissaAndAccuracy m₁ acc).mantissa = m₁ := by
    rcases acc with _ | (_ | _ | _) <;> rfl
  have size := log2_eq rep (b := b + j)
  rw [mantissa] at size
  have positive : (0 : ℚ) < 2 ^ j := by positivity
  constructor
  · intro h
    refine size.1 ?_
    rw [show b + j + 1 = b + 1 + j by omega, pow_add]
    exact (div_lt_iff₀ positive).mp h
  · intro h
    refine size.2 ?_
    rw [pow_add]
    exact (le_div_iff₀ positive).mp h

private theorem round_near {m m₁ j : Nat} {e₁ : Int} {acc : Accuracy} {x : ℚ}
    (canonical : Canonical m (e₁ + j)) (rep : Represents (.ofMantissaAndAccuracy m₁ acc) x)
    (shift : (max (m₁.log2 + e₁ - 52) (-1074) - e₁).toNat = j) (near : Near m (x / 2 ^ j))
    (s : Sign) :
    roundWithAccuracy .binary64 s m₁ e₁ acc = .finite s m (e₁ + j) canonical.positive := by
  have bits : m.log2 ≤ 52 := log2_le canonical.bits
  have full : 52 ≤ m.log2 ∨ e₁ + j = -1074 := canonical.full.imp_left le_log2
  have least := canonical.least
  have rounded := (rep.shiftRight j).roundedMantissa near
  have second : (max (m.log2 + (e₁ + j) - 52) (-1074) - (e₁ + j)).toNat = 0 := by omega
  have done := roundWithAccuracy_eq s shift rounded second rfl canonical.positive
  rwa [Nat.cast_zero, add_zero] at done

private theorem round_carry {m₁ i : Nat} {e₁ : Int} {acc : Accuracy} {x : ℚ}
    (rep : Represents (.ofMantissaAndAccuracy m₁ acc) x) (least : -1074 ≤ e₁ + i)
    (shift : (max (m₁.log2 + e₁ - 52) (-1074) - e₁).toNat = i) (near : Near (2 ^ 53) (x / 2 ^ i))
    (s : Sign) :
    roundWithAccuracy .binary64 s m₁ e₁ acc = .finite s (2 ^ 52) (e₁ + i + 1) (by decide) := by
  have bits : (2 ^ 53 : Nat).log2 = 53 := by decide
  have rounded := (rep.shiftRight i).roundedMantissa near
  have second : (max ((2 ^ 53 : Nat).log2 + (e₁ + i) - 52) (-1074) - (e₁ + i)).toNat = 1 := by
    rw [bits]
    omega
  exact roundWithAccuracy_eq s shift rounded second rfl (by decide)

/-- Below the least mantissa with all bits the gap is only half as wide, so what reads back from there
is rounded up when one bit more is kept of it. -/
private theorem Within.near_double {e : Int} {u : ℚ} (h : Within (2 ^ 52) e (u * 2 ^ e))
    (above : e ≠ -1074) (small : u < 2 ^ 52) : Near (2 ^ 53) (2 * u) := by
  have unit : (0 : ℚ) < 2 ^ e := zpow_pos (by norm_num) e
  have gap : (gapAround (2 ^ 52) e).lower = 4 * 2 ^ 52 - 1 := by
    simp only [gapAround]
    rw [if_pos]
    simp only [Bool.and_eq_true, decide_eq_true_eq]
    exact ⟨rfl, above⟩
  have cast : ((4 * 2 ^ 52 - 1 : ℕ) : ℚ) = 4 * 2 ^ 52 - 1 := by norm_num
  have lower := h.lower
  rw [gap, cast] at lower
  have bottom : (4 * 2 ^ 52 - 1 : ℚ) ≤ 4 * u := by
    refine le_of_mul_le_mul_right ?_ unit
    linarith
  push_cast
  exact ⟨by linarith, by linarith, fun _ => by decide⟩

/-- A value that reads back as a real is rounded to it, whatever exponent it comes with that is fine
enough. -/
theorem round_within {m : Nat} {e : Int} (canonical : Canonical m e) {m₁ : Nat} {e₁ : Int}
    {acc : Accuracy} {x : ℚ} (rep : Represents (.ofMantissaAndAccuracy m₁ acc) x)
    (fine : e₁ ≤ e) (within : Within m e (x * 2 ^ e₁)) (s : Sign) :
    roundWithAccuracy .binary64 s m₁ e₁ acc = .finite s m e canonical.positive := by
  obtain ⟨j, rfl⟩ : ∃ j : ℕ, e = e₁ + j := ⟨(e - e₁).toNat, by omega⟩
  have scaled : x * 2 ^ e₁ = x / 2 ^ j * 2 ^ (e₁ + j) := by
    rw [zpow_add₀ (by norm_num), zpow_natCast]
    field_simp
  rw [scaled] at within
  have near := within.near canonical.positive
  have top : (m : ℚ) + 1 / 2 < 2 ^ 53 := by
    have : (m + 1 : ℚ) ≤ 2 ^ 53 := by exact_mod_cast canonical.bits
    linarith
  have low : m₁.log2 ≤ 52 + j := (log2_shifted rep 52 j).1 (near.upper.trans_lt top)
  have least := canonical.least
  by_cases ordinary : 2 ^ 52 ≤ x / 2 ^ j ∨ e₁ + j = -1074 ∨ j = 0
  · have shift : (max (m₁.log2 + e₁ - 52) (-1074) - e₁).toNat = j := by
      rcases ordinary with large | _ | _
      · have high := (log2_shifted rep 52 j).2 large
        omega
      · omega
      · omega
    exact round_near canonical rep shift near s
  · simp only [not_or, not_le] at ordinary
    obtain ⟨small, hleast, hj⟩ := ordinary
    -- The mantissa is the least one with all bits.
    obtain rfl : m = 2 ^ 52 := by
      have full := canonical.full.resolve_right hleast
      have : (m : ℚ) < 2 ^ 52 + 1 := by linarith [near.lower]
      have : m < 2 ^ 52 + 1 := by exact_mod_cast this
      omega
    obtain ⟨i, rfl⟩ : ∃ i, j = i + 1 := ⟨j - 1, by omega⟩
    have double : x / 2 ^ i = 2 * (x / 2 ^ (i + 1)) := by
      rw [pow_succ]
      field_simp
    have carry : Near (2 ^ 53) (x / 2 ^ i) := by
      rw [double]
      exact within.near_double hleast small
    have size : m₁.log2 = 52 + i := by
      have bottom := carry.lower
      push_cast at bottom
      exact le_antisymm ((log2_shifted rep 52 i).1 (by linarith))
        ((log2_shifted rep 52 i).2 (by linarith))
    have exponent : e₁ + (i + 1 : ℕ) = e₁ + i + 1 := by
      push_cast
      ring
    rw [exponent] at least hleast
    have shift : (max (m₁.log2 + e₁ - 52) (-1074) - e₁).toNat = i := by omega
    have done := round_carry rep (by omega) shift carry s
    simpa only [exponent] using done

theorem Within.lt {m : Nat} {e : Int} {v : ℚ} (canonical : Canonical m e) (h : Within m e v) :
    v < 2 ^ (53 + e) := by
  have unit : (0 : ℚ) < 2 ^ e := zpow_pos (by norm_num) e
  have top : ((gapAround m e).upper : ℚ) = 4 * m + 2 := by
    simp [gapAround]
  have bits : (m + 1 : ℚ) ≤ 2 ^ 53 := by exact_mod_cast canonical.bits
  have upper := h.upper
  rw [top] at upper
  have power : (2 : ℚ) ^ (53 + e) = 2 ^ 53 * 2 ^ e := by
    rw [zpow_add₀ (by norm_num)]
    norm_num
  rw [power]
  nlinarith

theorem represents_exact (m : Nat) :
    Represents (.ofMantissaAndAccuracy m .exact) m := rfl

private theorem represents_fraction (a : Nat) {b : Nat} (positive : 0 < b) :
    Represents (.ofMantissaAndAccuracy (a / b) (accuracyOfFraction (a % b) b)) (a / b : ℚ) := by
  have hb : (0 : ℚ) < b := by exact_mod_cast positive
  have split : (a : ℚ) = b * (a / b : ℕ) + (a % b : ℕ) := by
    exact_mod_cast (Nat.div_add_mod a b).symm
  have rest : ((a % b : ℕ) : ℚ) < b := by exact_mod_cast Nat.mod_lt a positive
  have value : (a / b : ℚ) = (a / b : ℕ) + (a % b : ℕ) / b := by
    field_simp
    linarith
  unfold accuracyOfFraction
  split
  · rename_i exactly
    rw [value, exactly]
    simp [ExtendedMantissa.ofMantissaAndAccuracy, Represents]
  · rename_i remains
    have remains : (0 : ℚ) < (a % b : ℕ) := by exact_mod_cast Nat.pos_of_ne_zero remains
    rw [value]
    have part : (0 : ℚ) < (a % b : ℕ) / b := by positivity
    have whole : ((a % b : ℕ) : ℚ) / b < 1 := (div_lt_one hb).mpr rest
    -- Twice the rest against the divisor says on which side of one half the fraction lies.
    rcases hcompare : compare (2 * (a % b)) b with _ | _ | _
    · have below : (2 * (a % b : ℕ) : ℚ) < b := by exact_mod_cast Nat.compare_eq_lt.mp hcompare
      have half : ((a % b : ℕ) : ℚ) / b < 1 / 2 := by
        rw [div_lt_iff₀ hb]
        linarith
      simp only [ExtendedMantissa.ofMantissaAndAccuracy, Represents]
      constructor <;> linarith
    · have middle : (2 * (a % b : ℕ) : ℚ) = b := by exact_mod_cast Nat.compare_eq_eq.mp hcompare
      have half : ((a % b : ℕ) : ℚ) / b = 1 / 2 := by
        rw [div_eq_iff hb.ne']
        linarith
      simp only [ExtendedMantissa.ofMantissaAndAccuracy, Represents, half]
    · have above : (b : ℚ) < 2 * (a % b : ℕ) := by exact_mod_cast Nat.compare_eq_gt.mp hcompare
      have half : (1 / 2 : ℚ) < (a % b : ℕ) / b := by
        rw [lt_div_iff₀ hb]
        linarith
      simp only [ExtendedMantissa.ofMantissaAndAccuracy, Represents]
      constructor <;> linarith

private theorem log2_bounds {m : Nat} (positive : 0 < m) :
    (2 : ℚ) ^ m.log2 ≤ m ∧ (m : ℚ) < 2 ^ (m.log2 + 1) := by
  constructor
  · exact_mod_cast Nat.log2_self_le positive.ne'
  · exact_mod_cast Nat.lt_log2_self

theorem mul_within {m m₁ m₂ : Nat} {e e₁ e₂ : Int} (canonical : Canonical m e) {h₁ : 0 < m₁}
    {h₂ : 0 < m₂} (bits : 2 ^ 53 ≤ m₁ * m₂) (within : Within m e (m₁ * 2 ^ e₁ * (m₂ * 2 ^ e₂))) :
    UnpackedFloat.mul .binary64 (.finite .positive m₁ e₁ h₁) (.finite .positive m₂ e₂ h₂) =
      .finite .positive m e canonical.positive := by
  have value : (m₁ * 2 ^ e₁ * (m₂ * 2 ^ e₂) : ℚ) = (m₁ * m₂ : ℕ) * 2 ^ (e₁ + e₂) := by
    rw [zpow_add₀ (by norm_num)]
    push_cast
    ring
  rw [value] at within
  have fine : e₁ + e₂ ≤ e := by
    have large : (2 : ℚ) ^ 53 ≤ (m₁ * m₂ : ℕ) := by exact_mod_cast bits
    have unit : (0 : ℚ) < 2 ^ (e₁ + e₂) := zpow_pos (by norm_num) _
    have below : (2 : ℚ) ^ (53 + (e₁ + e₂)) < 2 ^ (53 + e) := by
      refine lt_of_le_of_lt ?_ (within.lt canonical)
      rw [zpow_add₀ (by norm_num)]
      refine mul_le_mul_of_nonneg_right ?_ unit.le
      exact_mod_cast large
    have := (zpow_lt_zpow_iff_right₀ (by norm_num : (1 : ℚ) < 2)).mp below
    omega
  exact round_within canonical (represents_exact (m₁ * m₂)) fine within .positive

theorem div_within {m m₁ m₂ : Nat} {e e₁ e₂ : Int} (canonical : Canonical m e) {h₁ : 0 < m₁}
    {h₂ : 0 < m₂} (within : Within m e (m₁ * 2 ^ e₁ / (m₂ * 2 ^ e₂))) :
    UnpackedFloat.div .binary64 (.finite .positive m₁ e₁ h₁) (.finite .positive m₂ e₂ h₂) =
      .finite .positive m e canonical.positive := by
  -- The quotient is taken at the exponent `T`, with `k` zeros behind the first mantissa.
  let T : Int := min (e₁ - e₂)
    (Format.binary64.targetExponent (totalExponent m₁ e₁ - totalExponent m₂ e₂))
  obtain ⟨k, hk⟩ : ∃ k : ℕ, e₁ - e₂ = T + k := ⟨(e₁ - e₂ - T).toNat, by omega⟩
  have shift : (e₁ - e₂ - T).toNat = k := by omega
  have two : (2 : ℚ) ≠ 0 := by norm_num
  have hm₂ : (0 : ℚ) < m₂ := by exact_mod_cast h₂
  have value : (m₁ * 2 ^ e₁ / (m₂ * 2 ^ e₂) : ℚ) = (m₁ <<< k : ℕ) / m₂ * 2 ^ T := by
    have power : (2 : ℚ) ^ e₁ = 2 ^ k * 2 ^ T * 2 ^ e₂ := by
      rw [← zpow_natCast, ← zpow_add₀ two, ← zpow_add₀ two]
      congr 1
      omega
    rw [power, Nat.shiftLeft_eq]
    push_cast
    field_simp
  have fine : T ≤ e := by
    have below : (2 : ℚ) ^ (m₁.log2 + e₁ - (m₂.log2 + 1 + e₂)) < 2 ^ (53 + e) := by
      refine lt_of_le_of_lt ?_ (within.lt canonical)
      have next : (2 : ℚ) ^ ((m₂.log2 : Int) + 1) = 2 ^ (m₂.log2 + 1) := by
        rw [← zpow_natCast, Nat.cast_succ]
      rw [zpow_sub₀ two, zpow_add₀ two, zpow_add₀ two, zpow_natCast, next]
      have least := (log2_bounds h₁).1
      have most := (log2_bounds h₂).2.le
      gcongr
    have := (zpow_lt_zpow_iff_right₀ (by norm_num : (1 : ℚ) < 2)).mp below
    have least := canonical.least
    have bits : (Format.binary64.mantissaBits : Int) = 53 := rfl
    have lowest : Format.binary64.minExponent = -1074 := rfl
    simp only [T, Format.targetExponent, totalExponent, bits, lowest]
    omega
  rw [value] at within
  have done := round_within canonical (represents_fraction (m₁ <<< k) h₂) fine within .positive
  rw [← shift] at done
  exact done

end RungLogic.Number
