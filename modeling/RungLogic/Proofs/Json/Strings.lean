import Mathlib.Tactic.SplitIfs
import RungLogic.Json.Reader
import RungLogic.Json.Writer

/-!
Strings in JSON texts. Each character is written as itself, as a short escape, or as one or two
units of four hexadecimal digits, and is read back from there whatever follows.
-/

set_option autoImplicit false
set_option relaxedAutoImplicit false

namespace RungLogic.Json

open Text (hexDigit hexDigits)

private theorem hexValue?_hexDigit {n : Nat} (h : n < 16) : hexValue? (hexDigit n) = some n := by
  have all : ∀ k < 16, hexValue? (hexDigit k) = some k := by decide
  exact all n h

private theorem hexDigits_four (n : Nat) :
    hexDigits 4 n = [hexDigit (n / 4096 % 16), hexDigit (n / 256 % 16), hexDigit (n / 16 % 16),
      hexDigit (n % 16)] := by
  simp [hexDigits, Nat.div_div_eq_div_mul]

private theorem hexUnit?_of_lt {n : Nat} (h : n < 65536) :
    hexUnit? (hexDigit (n / 4096 % 16)) (hexDigit (n / 256 % 16)) (hexDigit (n / 16 % 16))
      (hexDigit (n % 16)) = some n := by
  have value : ((n / 4096 % 16 * 16 + n / 256 % 16) * 16 + n / 16 % 16) * 16 + n % 16 = n := by
    omega
  have digit (k : Nat) : hexValue? (hexDigit (k % 16)) = some (k % 16) :=
    hexValue?_hexDigit (Nat.mod_lt k (by decide))
  simp [hexUnit?, digit, value]

private theorem stringBody_unit (start : List Char) {n : Nat} (h : n < 65536)
    (alone : isHigh n = false) (rest : List Char) :
    stringBody start (unitEscape n ++ rest) = prepend (unitChar n) (stringBody start rest) := by
  have unit := hexUnit?_of_lt h
  rw [unitEscape, hexDigits_four]
  generalize hexDigit (n / 4096 % 16) = a at *
  generalize hexDigit (n / 256 % 16) = b at *
  generalize hexDigit (n / 16 % 16) = c at *
  generalize hexDigit (n % 16) = d at *
  simp only [List.cons_append, List.nil_append]
  rw [stringBody.eq_def]
  -- The patterns with a unit leave it alone; the others do not fit.
  split <;> simp_all
  · split <;> rfl
  · rename_i short same
    exact absurd same.symm (short a b c d rest)
  · rename_i letter same
    exact absurd same.1.symm letter
  · rename_i long short same
    exact absurd same.2.symm (long _ _ same.1.symm)

private theorem stringBody_pair (start : List Char) {high low : Nat} (hhigh : isHigh high = true)
    (hlow : isLow low = true) (rest : List Char) :
    stringBody start (unitEscape high ++ (unitEscape low ++ rest)) =
      prepend (pairChar high low) (stringBody start rest) := by
  simp only [isHigh, isLow, Bool.and_eq_true, decide_eq_true_eq] at hhigh hlow
  have first := hexUnit?_of_lt (n := high) (by omega)
  have second := hexUnit?_of_lt (n := low) (by omega)
  simp only [unitEscape, hexDigits_four, List.cons_append, List.nil_append]
  rw [stringBody, first]
  simp [second, isHigh, isLow, hhigh, hlow]

private theorem stringBody_short (start : List Char) {c e : Char} (h : shortEscape? c = some e)
    (rest : List Char) :
    stringBody start ('\\' :: c :: rest) = prepend e (stringBody start rest) := by
  have hne : c ≠ 'u' := by
    rintro rfl
    cases h
  rw [stringBody.eq_def]
  split <;> simp_all
  rename_i long short same
  exact absurd same.2.symm (long _ _ same.1.symm)

private theorem stringBody_plain (start : List Char) {c : Char} (quote : c ≠ '"')
    (slash : c ≠ '\\') (h : 32 ≤ c.toNat) (rest : List Char) :
    stringBody start (c :: rest) = prepend c (stringBody start rest) := by
  have printable : ¬ c.toNat < 32 := by omega
  rw [stringBody, if_neg printable]
  all_goals simp [quote, slash]

private theorem toNat_bounds (c : Char) :
    c.toNat < 0xD800 ∨ 0xDFFF < c.toNat ∧ c.toNat < 0x110000 := c.valid

private theorem stringBody_escapeChar (start : List Char) (c : Char) (rest : List Char) :
    stringBody start (escapeChar c ++ rest) = prepend c (stringBody start rest) := by
  have bounds := toNat_bounds c
  simp only [escapeChar, Bool.or_eq_true, Bool.and_eq_true, decide_eq_true_eq]
  split_ifs with marked plain feed back tab backspace formFeed unit
  · exact stringBody_short start (by rcases marked with rfl | rfl <;> rfl) rest
  · exact stringBody_plain start (fun h => marked (.inl h)) (fun h => marked (.inr h)) plain.1 rest
  · exact stringBody_short start (by rw [feed]; rfl) rest
  · exact stringBody_short start (by rw [back]; rfl) rest
  · exact stringBody_short start (by rw [tab]; rfl) rest
  · have same : c = '\x08' := by rw [← Char.ofNat_toNat c, backspace]
    exact stringBody_short start (by rw [same]; rfl) rest
  · have same : c = '\x0c' := by rw [← Char.ofNat_toNat c, formFeed]
    exact stringBody_short start (by rw [same]; rfl) rest
  · have high : isHigh c.toNat = false := by simp [isHigh]; omega
    have low : isLow c.toNat = false := by simp [isLow]; omega
    rw [stringBody_unit start unit high, unitChar, high, low, Char.ofNat_toNat]
    rfl
  · have high : isHigh (0xD800 + (c.toNat - 65536) / 1024) = true := by simp [isHigh]; omega
    have low : isLow (0xDC00 + (c.toNat - 65536) % 1024) = true := by simp [isLow]; omega
    have pair : pairChar (0xD800 + (c.toNat - 65536) / 1024)
        (0xDC00 + (c.toNat - 65536) % 1024) = c := by
      have value : 0x10000 + (0xD800 + (c.toNat - 65536) / 1024 - 0xD800) * 0x400 +
          (0xDC00 + (c.toNat - 65536) % 1024 - 0xDC00) = c.toNat := by omega
      rw [pairChar, value, Char.ofNat_toNat]
    rw [List.append_assoc, stringBody_pair start high low, pair]

theorem stringBody_flatMap (start cs rest : List Char) :
    stringBody start (cs.flatMap escapeChar ++ '"' :: rest) = .ok (cs, rest) := by
  induction cs with
  | nil => rw [List.flatMap_nil, List.nil_append, stringBody]
  | cons c cs ih =>
    rw [List.flatMap_cons, List.append_assoc, stringBody_escapeChar, ih]
    rfl

private theorem hexDigit_ne_return {n : Nat} (h : n < 16) : hexDigit n ≠ '\r' := by
  have all : ∀ k < 16, hexDigit k ≠ '\r' := by decide
  exact all n h

private theorem unitEscape_ne_return {n : Nat} {d : Char} (h : d ∈ unitEscape n) : d ≠ '\r' := by
  have digit (k : Nat) : hexDigit (k % 16) ≠ '\r' := hexDigit_ne_return (Nat.mod_lt k (by decide))
  simp only [unitEscape, hexDigits_four, List.mem_cons, List.not_mem_nil, or_false] at h
  rcases h with rfl | rfl | rfl | rfl | rfl | rfl
  · decide
  · decide
  all_goals exact digit _

private theorem two_ne_return {a b d : Char} (ha : a ≠ '\r') (hb : b ≠ '\r') (h : d ∈ [a, b]) :
    d ≠ '\r' := by
  simp only [List.mem_cons, List.not_mem_nil, or_false] at h
  rcases h with rfl | rfl
  · exact ha
  · exact hb

theorem escapeChar_ne_return {c d : Char} (h : d ∈ escapeChar c) : d ≠ '\r' := by
  simp only [escapeChar, Bool.or_eq_true, Bool.and_eq_true, decide_eq_true_eq] at h
  split_ifs at h with marked plain
  · exact two_ne_return (by decide) (by rcases marked with rfl | rfl <;> decide) h
  · rintro rfl
    rw [← List.mem_singleton.mp h] at plain
    revert plain
    decide
  · exact two_ne_return (by decide) (by decide) h
  · exact two_ne_return (by decide) (by decide) h
  · exact two_ne_return (by decide) (by decide) h
  · exact two_ne_return (by decide) (by decide) h
  · exact two_ne_return (by decide) (by decide) h
  · exact unitEscape_ne_return h
  · rcases List.mem_append.mp h with h | h
    · exact unitEscape_ne_return h
    · exact unitEscape_ne_return h

end RungLogic.Json
