import RungLogic.Number.Reader
import RungLogic.Proofs.Number.Rounding

/-!
Reals and their forms. The bits of a real give its form, and the form gives the real back; a decimal
whose value lies in the gap around a form makes the real of that form.
-/

set_option autoImplicit false
set_option relaxedAutoImplicit false

namespace RungLogic.Number

open Float.Model Float.Model.UnpackedFloat

def unpacked (x : Float) : UnpackedFloat := x.toModel.unpack

theorem unpacked_inj {x y : Float} (h : unpacked x = unpacked y) : x = y := by
  have bits := (unpack_inj_of_valid x.toModel.valid y.toModel.valid).mp h
  refine Float.toBits_inj.mp ?_
  show x.toModel.toBits = y.toModel.toBits
  exact UInt64.toBitVec_inj.mp bits

private theorem ofNat_ne {w a b : Nat} (ha : a < 2 ^ w) (hb : b < 2 ^ w) (h : a ≠ b) :
    BitVec.ofNat w a ≠ BitVec.ofNat w b := by
  intro same
  have values := congrArg BitVec.toNat same
  rw [BitVec.toNat_ofNat, BitVec.toNat_ofNat, Nat.mod_eq_of_lt ha, Nat.mod_eq_of_lt hb] at values
  exact h values

private theorem toNat_append_one (v : BitVec 52) : (1#1 ++ v).toNat = 2 ^ 52 + v.toNat := by
  rw [BitVec.toNat_append, ← Nat.shiftLeft_add_eq_or_of_lt v.isLt]
  rfl

private theorem unpack_normal (s : Sign) {m b : Nat} (full : 2 ^ 52 ≤ m) (bits : m < 2 ^ 53)
    (positive : 0 < b) (below : b < 2047) :
    unpack .binary64 (packComponents .binary64 s (BitVec.ofNat 11 b) (BitVec.ofNat 52 m)) =
      .finite s m ((b : Int) - 1075) (by omega) := by
  have exponent : (BitVec.ofNat 11 b).toNat = b := by
    rw [BitVec.toNat_ofNat, Nat.mod_eq_of_lt (by omega)]
  have notLast : BitVec.ofNat 11 b ≠ -1#11 := ofNat_ne (by omega) (by decide) (b := 2047) (by omega)
  have notFirst : BitVec.ofNat 11 b ≠ 0#11 := ofNat_ne (by omega) (by decide) (by omega)
  have mantissa : (1#1 ++ BitVec.ofNat 52 m).toNat = m := by
    rw [toNat_append_one, BitVec.toNat_ofNat]
    omega
  unfold UnpackedFloat.unpack
  simp only [unpackMantissa_packComponents, unpackExponent_packComponents,
    unpackSign_packComponents, Sign.ofBitVec_toBitVec]
  rw [if_neg notLast, if_neg notFirst]
  simp only [mantissa, exponent]
  rfl

private theorem unpack_subnormal (s : Sign) {m : Nat} (positive : 0 < m) (small : m < 2 ^ 52) :
    unpack .binary64 (packComponents .binary64 s 0#11 (BitVec.ofNat 52 m)) =
      .finite s m (-1074) positive := by
  have mantissa : (BitVec.ofNat 52 m).toNat = m := by
    rw [BitVec.toNat_ofNat, Nat.mod_eq_of_lt small]
  have nonzero : BitVec.ofNat 52 m ≠ 0#52 := ofNat_ne small (by decide) (by omega)
  have notLast : 0#11 ≠ -1#11 := by decide
  unfold UnpackedFloat.unpack
  simp only [unpackMantissa_packComponents, unpackExponent_packComponents,
    unpackSign_packComponents, Sign.ofBitVec_toBitVec]
  rw [if_neg notLast, if_pos trivial, dif_neg nonzero]
  simp only [mantissa]
  rfl

/-- Canonical numbers below the largest power of two are kept by the bits. -/
theorem unpack_pack {m : Nat} {e : Int} (canonical : Canonical m e) (below : e ≤ 971) (s : Sign) :
    unpack .binary64 (pack .binary64 (.finite s m e canonical.positive)) =
      .finite s m e canonical.positive := by
  have least := canonical.least
  have biased : (e + Format.binary64.exponentBias + (52 : ℕ)).toNat = (e + 1075).toNat := by
    have bias : (Format.binary64.exponentBias : Int) = 1023 := rfl
    omega
  have fits : ¬ 2 ^ 11 ≤ (e + 1075).toNat + 1 := by omega
  simp only [UnpackedFloat.pack, biased]
  rw [if_neg fits]
  by_cases full : 2 ^ 52 ≤ m
  · have log : m.log2 + 1 = Format.binary64.mantissaBits := by
      rw [(Nat.log2_eq_iff canonical.positive.ne').mpr ⟨full, canonical.bits⟩]
      rfl
    rw [if_pos log, unpack_normal s full canonical.bits (by omega) (by omega)]
    congr 1
    omega
  · have log : ¬ m.log2 + 1 = Format.binary64.mantissaBits := by
      have := (Nat.log2_lt canonical.positive.ne').mpr (Nat.lt_of_not_le full)
      have : Format.binary64.mantissaBits = 53 := rfl
      omega
    obtain rfl := canonical.full.resolve_left full
    rw [if_neg log]
    exact unpack_subnormal s canonical.positive (by omega)

private theorem unpacked_ofModel (f : UnpackedFloat) :
    unpacked (.ofModel (.pack f)) = UnpackedFloat.unpack .binary64 (f.pack .binary64) := rfl

private theorem unpacked_div (x y : Float) : unpacked (x / y) = UnpackedFloat.unpack .binary64
    (((unpacked x).div .binary64 (unpacked y)).pack .binary64) := rfl

private theorem unpacked_mul (x y : Float) : unpacked (x * y) = UnpackedFloat.unpack .binary64
    (((unpacked x).mul .binary64 (unpacked y)).pack .binary64) := rfl

theorem unpacked_neg (x : Float) : unpacked (-x) = UnpackedFloat.unpack .binary64
    ((unpacked x).neg.pack .binary64) := rfl

def Form.sign (negative : Bool) : Sign := if negative then .negative else .positive

def Form.unpacked : Form → UnpackedFloat
  | .undefined => .notANumber
  | .infinite negative => .infinity (sign negative)
  | .finite negative m e =>
    if positive : 0 < m then .finite (sign negative) m e positive else .zero (sign negative)

private theorem toNat_parts (b : BitVec 64) :
    (@unpackMantissa .binary64 b).toNat = b.toNat % 2 ^ 52 ∧
      (@unpackExponent .binary64 b).toNat = b.toNat / 2 ^ 52 % 2 ^ 11 ∧
      (@unpackSign .binary64 b).toNat = b.toNat / 2 ^ 63 % 2 := by
  refine ⟨?_, ?_, ?_⟩
  · simp [unpackMantissa]
  · simp [unpackExponent, Nat.shiftRight_eq_div_pow]
  · simp [unpackSign, Nat.shiftRight_eq_div_pow]

private theorem sign_eq (b : BitVec 1) : Sign.ofBitVec b = Form.sign (b.toNat == 1) := by
  rcases BitVec.eq_zero_or_eq_one b with rfl | rfl
  · rfl
  · rfl

theorem unpacked_eq (x : Float) : unpacked x = (Form.ofReal x).unpacked := by
  obtain ⟨hm, he, hs⟩ := toNat_parts x.toModel.toBits.toBitVec
  have last : (-1#11).toNat = 2047 := rfl
  have bias : (Format.binary64.exponentBias : Int) = 1023 := rfl
  have bits : x.toBits.toNat = x.toModel.toBits.toBitVec.toNat := rfl
  obtain ⟨b, hb⟩ : ∃ b, x.toModel.toBits.toBitVec.toNat = b := ⟨_, rfl⟩
  show UnpackedFloat.unpack .binary64 x.toModel.toBits.toBitVec = _
  unfold UnpackedFloat.unpack Form.ofReal Form.ofBits
  simp only [sign_eq, hs, ← BitVec.toNat_inj, he, toNat_append_one, hm, last, bits, bias,
    BitVec.toNat_ofNat, hb, Nat.zero_mod]
  show _ = Form.unpacked (if b / 2 ^ 52 % 2 ^ 11 = 2047 then
    if b % 2 ^ 52 = 0 then .infinite (b / 2 ^ 63 % 2 == 1) else .undefined
    else if b / 2 ^ 52 % 2 ^ 11 = 0 then .finite (b / 2 ^ 63 % 2 == 1) (b % 2 ^ 52) (-1074)
    else .finite (b / 2 ^ 63 % 2 == 1) (2 ^ 52 + b % 2 ^ 52) ((b / 2 ^ 52 % 2 ^ 11 : ℕ) - 1075))
  split
  · split
    · rfl
    · rfl
  · split
    · rename_i first
      rw [first]
      split
      · rename_i none
        simp only [Form.unpacked, none]
        rfl
      · rename_i some
        simp only [Form.unpacked, dif_pos (Nat.pos_of_ne_zero some)]
        rfl
    · have positive : 0 < 2 ^ 52 + b % 2 ^ 52 := by omega
      simp only [Form.unpacked, dif_pos positive]
      congr 1

theorem canonical_of_form {x : Float} {negative : Bool} {m : Nat} {e : Int}
    (h : Form.ofReal x = .finite negative m e) (positive : 0 < m) :
    Canonical m e ∧ e ≤ 971 := by
  unfold Form.ofReal at h
  generalize x.toBits.toNat = b at h
  have fraction : b % 2 ^ 52 < 2 ^ 52 := Nat.mod_lt b (by decide)
  have exponent : b / 2 ^ 52 % 2 ^ 11 < 2 ^ 11 := Nat.mod_lt _ (by decide)
  have cases : Form.ofBits b = if b / 2 ^ 52 % 2 ^ 11 = 2047 then
      if b % 2 ^ 52 = 0 then .infinite (b / 2 ^ 63 % 2 == 1) else .undefined
      else if b / 2 ^ 52 % 2 ^ 11 = 0 then .finite (b / 2 ^ 63 % 2 == 1) (b % 2 ^ 52) (-1074)
      else .finite (b / 2 ^ 63 % 2 == 1) (2 ^ 52 + b % 2 ^ 52)
        ((b / 2 ^ 52 % 2 ^ 11 : ℕ) - 1075) := rfl
  rw [cases] at h
  generalize b % 2 ^ 52 = f at *
  generalize b / 2 ^ 52 % 2 ^ 11 = k at *
  split at h
  · split at h <;> cases h
  · split at h
    · cases h
      exact ⟨⟨positive, by omega, by omega, .inr rfl⟩, by omega⟩
    · cases h
      exact ⟨⟨positive, by omega, by omega, .inl (by omega)⟩, by omega⟩

/-- Whether a form is that power of ten, with all bits of its mantissa. -/
def Form.isTenTo (k : Nat) : Form → Bool
  | .finite false m e => decide (2 ^ 52 ≤ m ∧ m * 2 ^ e.toNat = 10 ^ k * 2 ^ (-e).toNat)
  | _ => false

theorem zpow_eq_div (b : ℚ) (hb : b ≠ 0) (e : Int) : b ^ e = b ^ e.toNat / b ^ (-e).toNat := by
  rw [← zpow_natCast, ← zpow_natCast, ← zpow_sub₀ hb]
  congr 1
  omega

private theorem unpacked_power {k : Nat} (h : k < Float.exactlyRepresentablePowersOfTen.size) :
    ∃ m e, ∃ positive : 0 < m, unpacked Float.exactlyRepresentablePowersOfTen[k] =
      .finite .positive m e positive ∧ 2 ^ 52 ≤ m ∧ (m * 2 ^ e : ℚ) = 10 ^ k := by
  have table : ∀ k : Fin 23, (Form.ofReal Float.exactlyRepresentablePowersOfTen[k]).isTenTo k := by
    decide +kernel
  have entry : (Form.ofReal Float.exactlyRepresentablePowersOfTen[k]).isTenTo k = true :=
    table ⟨k, h⟩
  have taken := unpacked_eq Float.exactlyRepresentablePowersOfTen[k]
  rcases hform : Form.ofReal Float.exactlyRepresentablePowersOfTen[k] with _ | _ | ⟨_ | _, m, e⟩
  · rw [hform] at entry
    cases entry
  · rw [hform] at entry
    cases entry
  · rw [hform] at entry taken
    obtain ⟨full, value⟩ := of_decide_eq_true entry
    have positive : 0 < m := by omega
    refine ⟨m, e, positive, ?_, full, ?_⟩
    · rw [taken, Form.unpacked, dif_pos positive]
      rfl
    · rw [zpow_eq_div 2 (by norm_num), mul_div_assoc', div_eq_iff (by positivity)]
      exact_mod_cast value
  · rw [hform] at entry
    cases entry

private theorem unpacked_whole {d : Nat} (positive : 0 < d) (small : d < 2 ^ 53) :
    ∃ m e, ∃ positive : 0 < m, unpacked d.toUInt64.toFloat = .finite .positive m e positive ∧
      2 ^ 52 ≤ m ∧ (m * 2 ^ e : ℚ) = d := by
  have log : d.log2 ≤ 52 := Nat.lt_succ_iff.mp ((Nat.log2_lt positive.ne').mpr small)
  obtain ⟨k, hk⟩ : ∃ k, d.log2 + k = 52 := ⟨52 - d.log2, by omega⟩
  have least : 2 ^ d.log2 ≤ d := Nat.log2_self_le positive.ne'
  have most : d < 2 ^ (d.log2 + 1) := Nat.lt_log2_self
  have shifted : d <<< k = d * 2 ^ k := Nat.shiftLeft_eq d k
  have full : 2 ^ 52 ≤ d <<< k := by
    rw [shifted, ← hk, pow_add]
    exact Nat.mul_le_mul_right _ least
  have bits : d <<< k < 2 ^ 53 := by
    rw [shifted, show 53 = d.log2 + 1 + k by omega, pow_add]
    exact Nat.mul_lt_mul_of_pos_right most (by positivity)
  -- With all its bits the mantissa is canonical as it is, so rounding changes nothing.
  have canonical : Canonical (d <<< k) (-k) := ⟨by omega, bits, by omega, .inl full⟩
  have word : d.toUInt64.toNat = d := by
    show (UInt64.ofNat d).toNat = d
    rw [UInt64.toNat_ofNat_of_lt']
    exact Nat.lt_trans small (by decide)
  refine ⟨d <<< k, -k, canonical.positive, ?_, full, ?_⟩
  · have exact := round_within canonical (represents_exact (d <<< k)) le_rfl
      (within_self canonical.positive (-k)) .positive
    have shift : (-max ((d.log2 : Int) + 0 - 52) (-1074)).toNat = k := by omega
    have positive' : compare (d : Int) 0 = .gt := Int.compare_eq_gt.mpr (by omega)
    have rounded : UnpackedFloat.ofUInt64 .binary64 d.toUInt64 =
        .finite .positive (d <<< k) (-k) canonical.positive := by
      rw [← exact]
      simp only [UnpackedFloat.ofUInt64, UnpackedFloat.ofNat, UnpackedFloat.ofInt,
        UnpackedFloat.normalize, word, positive', UnpackedFloat.round, decreaseExponent,
        targetExponent_eq, Int.toNat_natCast, zero_sub, shift]
    show UnpackedFloat.unpack .binary64 ((UnpackedFloat.ofUInt64 .binary64 d.toUInt64).pack _) = _
    rw [rounded]
    exact unpack_pack canonical (by omega) .positive
  · rw [shifted, zpow_neg, zpow_natCast]
    push_cast
    field_simp

private theorem Within.large {m : Nat} {e : Int} {v : ℚ} (canonical : Canonical m e)
    (h : Within m e v) : (2 : ℚ) ^ (-1075 : Int) ≤ v := by
  have lower : 2 ≤ (gapAround m e).lower := by
    have positive := canonical.positive
    simp only [gapAround]
    split <;> omega
  have lower' : (2 : ℚ) ≤ (gapAround m e).lower := by exact_mod_cast lower
  have least : (2 : ℚ) ^ (-1074 : Int) ≤ 2 ^ e := zpow_le_zpow_right₀ (by norm_num) canonical.least
  have unit : (0 : ℚ) < 2 ^ (-1074 : Int) := zpow_pos (by norm_num) _
  have step : (2 : ℚ) ^ (-1074 : Int) = 2 ^ (-1075 : Int) * 2 := by
    rw [show (-1074 : Int) = -1075 + 1 by norm_num, zpow_add_one₀ (by norm_num)]
  have below := h.lower
  nlinarith

private theorem Within.moderate {m d : Nat} {e k : Int} (canonical : Canonical m e) (below : e ≤ 971)
    (h : Within m e (d * 10 ^ k)) : 0 < d ∧ k ≤ 2 ^ 11 ∧ -(2 ^ 11 + d.log2) ≤ k := by
  have large := h.large canonical
  have small : (d * 10 ^ k : ℚ) < 2 ^ (1024 : Int) :=
    (h.lt canonical).trans_le (zpow_le_zpow_right₀ (by norm_num) (by omega))
  have unit : (0 : ℚ) < 10 ^ k := zpow_pos (by norm_num) k
  have least : (0 : ℚ) < 2 ^ (-1075 : Int) := zpow_pos (by norm_num) _
  have positive : 0 < d := by
    refine Nat.pos_of_ne_zero fun none => ?_
    rw [none, Nat.cast_zero, zero_mul] at large
    exact absurd large least.not_ge
  refine ⟨positive, ?_, ?_⟩
  · by_contra high
    have one : (1 : ℚ) ≤ d := by exact_mod_cast positive
    have power : (2 : ℚ) ^ (1024 : Int) ≤ 10 ^ k :=
      calc (2 : ℚ) ^ (1024 : Int) ≤ 2 ^ k := zpow_le_zpow_right₀ (by norm_num) (by omega)
        _ ≤ 10 ^ k := zpow_le_zpow_left₀ (by omega) (by norm_num) (by norm_num)
    exact absurd (power.trans (le_mul_of_one_le_left unit.le one)) small.not_ge
  · by_contra low
    have bits : (d : ℚ) < 2 ^ (d.log2 + 1) := by exact_mod_cast Nat.lt_log2_self (n := d)
    have power : (10 : ℚ) ^ k ≤ 2 ^ k := by
      rw [← inv_le_inv₀ (zpow_pos (by norm_num) k) unit, ← zpow_neg, ← zpow_neg]
      exact zpow_le_zpow_left₀ (by omega) (by norm_num) (by norm_num)
    have value : (d * 10 ^ k : ℚ) < 2 ^ (-1075 : Int) :=
      calc (d * 10 ^ k : ℚ) ≤ 2 ^ (d.log2 + 1) * 2 ^ k := by gcongr
        _ = 2 ^ ((d.log2 + 1 : ℕ) + k) := by rw [zpow_add₀ (by norm_num), zpow_natCast]
        _ < 2 ^ (-1075 : Int) := zpow_lt_zpow_right₀ (by norm_num) (by push_cast; omega)
    exact absurd large value.not_ge

section Decimals

variable {m d : Nat} {e k : Int}

private theorem power_of_neg (h : k < 0) : (10 : ℚ) ^ k = (10 ^ k.natAbs)⁻¹ := by
  rw [← zpow_natCast, ← zpow_neg]
  congr 1
  omega

private theorem power_of_nonneg (h : ¬ k < 0) : (10 : ℚ) ^ k = 10 ^ k.natAbs := by
  rw [← zpow_natCast]
  congr 1
  omega

private theorem unpacked_short (canonical : Canonical m e) (below : e ≤ 971) (positive : 0 < d)
    (within : Within m e (d * 10 ^ k)) (short : d < 2 ^ 53 ∧ k.natAbs ≤ 22) :
    unpacked (ofDecimal d k) = .finite .positive m e canonical.positive := by
  have inside : k.natAbs < Float.exactlyRepresentablePowersOfTen.size := Nat.lt_succ_of_le short.2
  obtain ⟨m₁, e₁, h₁, digits, full₁, value₁⟩ := unpacked_whole positive short.1
  obtain ⟨m₂, e₂, h₂, power, full₂, value₂⟩ := unpacked_power inside
  by_cases negative : k < 0
  · have quotient : ofDecimal d k =
        d.toUInt64.toFloat / Float.exactlyRepresentablePowersOfTen[k.natAbs] := by
      simp only [ofDecimal, Float.ofScientific, dif_pos short, decide_eq_true negative, if_pos]
    rw [power_of_neg negative, ← value₁, ← value₂, ← div_eq_mul_inv] at within
    rw [quotient, unpacked_div, digits, power, div_within canonical within]
    exact unpack_pack canonical below .positive
  · have product : ofDecimal d k =
        d.toUInt64.toFloat * Float.exactlyRepresentablePowersOfTen[k.natAbs] := by
      simp only [ofDecimal, Float.ofScientific, dif_pos short, decide_eq_false negative,
        Bool.false_eq_true, if_false]
    have bits : 2 ^ 53 ≤ m₁ * m₂ := by nlinarith
    rw [power_of_nonneg negative, ← value₁, ← value₂] at within
    rw [product, unpacked_mul, digits, power, mul_within canonical bits within]
    exact unpack_pack canonical below .positive

private theorem ofScientific_within (canonical : Canonical m e) (below : e ≤ 971)
    (within : Within m e (d * 10 ^ k)) :
    UnpackedFloat.ofScientific .binary64 d k = .finite .positive m e canonical.positive := by
  obtain ⟨positive, high, low⟩ := within.moderate canonical below
  have notHigh : ¬ k > 2 ^ Format.binary64.exponentBits := not_lt.mpr high
  have notLow : ¬ k < -(2 ^ Format.binary64.exponentBits + d.log2) := not_lt.mpr low
  unfold UnpackedFloat.ofScientific
  rw [dif_neg positive.ne', if_neg notHigh, if_neg notLow]
  split
  · rename_i up
    have bits : 2 ^ 53 ≤ d <<< Format.binary64.mantissaBits * 10 ^ k.toNat := by
      rw [Nat.shiftLeft_eq]
      calc 2 ^ 53 ≤ d * 2 ^ 53 := Nat.le_mul_of_pos_left _ positive
        _ ≤ d * 2 ^ 53 * 10 ^ k.toNat := Nat.le_mul_of_pos_right _ (Nat.pow_pos (by decide))
    have value : (d * 10 ^ k : ℚ) = (d <<< Format.binary64.mantissaBits : ℕ) *
        2 ^ (-(Format.binary64.mantissaBits : Int)) * ((10 ^ k.toNat : ℕ) * 2 ^ (0 : Int)) := by
      have size : k.natAbs = k.toNat := by omega
      rw [Nat.shiftLeft_eq, zpow_neg, zpow_natCast, power_of_nonneg (not_lt.mpr up), size]
      push_cast
      field_simp
    rw [value] at within
    exact mul_within canonical bits within
  · rename_i down
    have value : (d * 10 ^ k : ℚ) =
        d * 2 ^ (0 : Int) / ((10 ^ (-k).toNat : ℕ) * 2 ^ (0 : Int)) := by
      have size : k.natAbs = (-k).toNat := by omega
      rw [power_of_neg (not_le.mp down), size, zpow_zero, mul_one, mul_one, ← div_eq_mul_inv]
      push_cast
      rfl
    rw [value] at within
    exact div_within canonical within

/-- A decimal inside the gap around a real is read as that real. -/
theorem unpacked_ofDecimal (canonical : Canonical m e) (below : e ≤ 971)
    (within : Within m e (d * 10 ^ k)) :
    unpacked (ofDecimal d k) = .finite .positive m e canonical.positive := by
  by_cases short : d < 2 ^ 53 ∧ k.natAbs ≤ 22
  · exact unpacked_short canonical below (within.moderate canonical below).1 within short
  · have exponent :
        (if decide (k < 0) = true then Int.negOfNat k.natAbs else .ofNat k.natAbs) = k := by
      by_cases negative : k < 0
      · rw [if_pos (decide_eq_true negative), Int.negOfNat_eq, Int.ofNat_eq_natCast]
        omega
      · rw [if_neg (by simpa using negative), Int.ofNat_eq_natCast]
        omega
    have scaled : ofDecimal d k = .ofModel (.pack (.ofScientific .binary64 d k)) := by
      simp only [ofDecimal, Float.ofScientific, dif_neg short, exponent]
      rfl
    rw [scaled, unpacked_ofModel, ofScientific_within canonical below within]
    exact unpack_pack canonical below .positive

end Decimals

end RungLogic.Number
