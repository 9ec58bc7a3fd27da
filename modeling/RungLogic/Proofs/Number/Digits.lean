import Mathlib.Algebra.Ring.Nat
import RungLogic.Number
import RungLogic.Proofs.Json.Numbers
import RungLogic.Proofs.Text.Runs

/-!
Digits read as numbers. A group of digits is read as the number that it writes, with a sign, a point or
an exponent around it as well.
-/

set_option autoImplicit false
set_option relaxedAutoImplicit false

namespace RungLogic.Number

/-- The characters of numerals: digits, points, exponents and signs, and the letters of the words
for numbers without digits. -/
def isNumeral (c : Char) : Bool := c.isDigit || ['.', 'e', '+', '-', 'n', 'a', 'i', 'f'].contains c

def AllDigits (cs : List Char) : Prop := ∀ c ∈ cs, c.isDigit = true

/-- The number that digits write. -/
def digitsValue (cs : List Char) : Nat := Nat.ofDigitChars 10 cs 0

section Characters

variable {c : Char} {cs : List Char}

private theorem isNumeral_cases (h : isNumeral c = true) :
    c.isDigit = true ∨ c = '.' ∨ c = 'e' ∨ c = '+' ∨ c = '-' ∨ c = 'n' ∨ c = 'a' ∨ c = 'i' ∨
      c = 'f' := by
  simpa [isNumeral] using h

theorem isNumeral_digit (h : c.isDigit = true) : isNumeral c = true := by
  rw [isNumeral, h, Bool.true_or]

theorem isBlank_numeral (h : isNumeral c = true) : Text.isBlank c = false := by
  rcases isNumeral_cases h with digit | rfl | rfl | rfl | rfl | rfl | rfl | rfl | rfl
  · obtain ⟨low, high⟩ := Char.isDigit_iff_toNat.mp digit
    have low' : 48 ≤ c.toNat := low
    have high' : c.toNat ≤ 57 := high
    simp only [Text.isBlank, Bool.or_eq_false_iff, Bool.and_eq_false_iff, decide_eq_false_iff_not]
    omega
  all_goals decide

private theorem isNumberBlank_numeral (h : isNumeral c = true) : isNumberBlank c = false := by
  rw [isNumberBlank, isBlank_numeral h, Bool.false_and]

theorem ne_literal_numeral (h : isNumeral c = true) : c ≠ 'T' := by
  rintro rfl
  cases h

private theorem digitValue?_digit (h : c.isDigit = true) : Text.digitValue? c = some (c.toNat - 48) := by
  obtain ⟨low, high⟩ := Char.isDigit_iff_toNat.mp h
  have ascii : c.toNat < 128 := Nat.lt_of_le_of_lt high (by decide)
  have range : (48 ≤ c.toNat && c.toNat ≤ 57) = true := by
    simpa using And.intro low high
  simp only [Text.digitValue?, if_pos ascii, if_pos range]

theorem ne_of_digit {d : Char} (h : c.isDigit = true) (hd : d.isDigit = false) : c ≠ d := by
  rintro rfl
  rw [h] at hd
  cases hd

private theorem digitGroup?_digits (digits : AllDigits cs) (nonempty : cs ≠ []) :
    digitGroup? cs = some (cs.map fun c => c.toNat - 48) := by
  induction cs with
  | nil => exact absurd rfl nonempty
  | cons c cs ih =>
    have head := digitValue?_digit (digits c List.mem_cons_self)
    rcases cs with _ | ⟨d, cs⟩
    · simp [digitGroup?, head]
    · have tail := ih (fun a ha => digits a (List.mem_cons_of_mem c ha)) (List.cons_ne_nil d cs)
      have notMark : d ≠ '_' := ne_of_digit (digits d (by simp)) rfl
      rw [digitGroup?, head, tail]
      · rfl
      · exact List.cons_ne_nil d cs
      · rintro rest ⟨⟩
        exact notMark rfl

theorem digit_of_digitGroup? {ds : List Nat} (h : digitGroup? cs = some ds) :
    ∀ c ∈ cs, c = '_' ∨ (Text.digitValue? c).isSome = true := by
  induction cs using digitGroup?.induct generalizing ds with
  | case1 => cases h
  | case2 c =>
    rw [digitGroup?, Option.map_eq_some_iff] at h
    obtain ⟨d, hd, -⟩ := h
    intro a ha
    rw [List.mem_singleton.mp ha, hd]
    exact .inr rfl
  | case3 c rest ih =>
    rw [digitGroup?] at h
    obtain ⟨d, hd, h⟩ := Option.bind_eq_some_iff.mp h
    obtain ⟨ds', hds, -⟩ := Option.bind_eq_some_iff.mp h
    intro a ha
    rcases List.mem_cons.mp ha with rfl | ha
    · exact .inr (Option.isSome_of_eq_some hd)
    · rcases List.mem_cons.mp ha with rfl | ha
      · exact .inl rfl
      · exact ih hds a ha
  | case4 c rest nonempty notMark ih =>
    rw [digitGroup?.eq_4 c rest nonempty notMark] at h
    obtain ⟨d, hd, h⟩ := Option.bind_eq_some_iff.mp h
    obtain ⟨ds', hds, -⟩ := Option.bind_eq_some_iff.mp h
    intro a ha
    rcases List.mem_cons.mp ha with rfl | ha
    · exact .inr (Option.isSome_of_eq_some hd)
    · exact ih hds a ha

private theorem ofDigits_digits (cs : List Char) :
    ofDigits (cs.map fun c => c.toNat - 48) = digitsValue cs := by
  rw [ofDigits, List.foldl_map]
  rfl

private theorem optionalGroup?_digits (digits : AllDigits cs) :
    optionalGroup? cs = some (cs.map fun c => c.toNat - 48) := by
  rcases cs with _ | ⟨c, cs⟩
  · rfl
  · exact digitGroup?_digits digits (List.cons_ne_nil c cs)

theorem digitsValue_append_toDigits (k n : Nat) :
    digitsValue (List.replicate k '0' ++ Nat.toDigits 10 n) = n := by
  rw [digitsValue, Nat.ofDigitChars_append, Nat.ofDigitChars_replicate_zero, Nat.mul_zero]
  exact Nat.ofDigitChars_ten_toDigits

theorem digitsValue_append_zeros (cs : List Char) (k : Nat) :
    digitsValue (cs ++ List.replicate k '0') = 10 ^ k * digitsValue cs := by
  rw [digitsValue, Nat.ofDigitChars_append, Nat.ofDigitChars_replicate_zero]
  rfl

theorem allDigits_toDigits (n : Nat) : AllDigits (Nat.toDigits 10 n) := by
  intro c hc
  exact Nat.isDigit_of_mem_toDigits (by decide) (by decide) hc

theorem allDigits_zeros (k : Nat) : AllDigits (List.replicate k '0') := by
  intro c hc
  rw [List.eq_of_mem_replicate hc]
  rfl

theorem AllDigits.append {as bs : List Char} (ha : AllDigits as) (hb : AllDigits bs) :
    AllDigits (as ++ bs) := by
  intro c hc
  exact (List.mem_append.mp hc).elim (ha c) (hb c)

theorem signedDigits?_signed (negative : Bool) (digits : AllDigits cs) (nonempty : cs ≠ []) :
    signedDigits? ((if negative then '-' else '+') :: cs) =
      some (if negative then -(digitsValue cs : Int) else digitsValue cs) := by
  have group := digitGroup?_digits digits nonempty
  cases negative <;> simp [signedDigits?, takeSign, group, ofDigits_digits]

end Characters

section Integers

theorem isNumeral_int (i : Int) : ∀ c ∈ (toString i).toList, isNumeral c = true := by
  rw [Json.toList_toString_int]
  intro c hc
  rcases List.mem_append.mp hc with hc | hc
  · split at hc
    · rw [List.mem_singleton.mp hc]
      rfl
    · cases hc
  · exact isNumeral_digit (allDigits_toDigits i.natAbs c hc)

private theorem takeSign_digits {cs : List Char} (digits : AllDigits cs) : takeSign cs = (false, cs) := by
  rw [takeSign.eq_def]
  split
  · exact absurd (digits '+' List.mem_cons_self) (by decide)
  · exact absurd (digits '-' List.mem_cons_self) (by decide)
  · rfl

theorem trimBy_numeral {cs : List Char} (h : ∀ c ∈ cs, isNumeral c = true) :
    Text.trimBy isNumberBlank cs = cs :=
  Text.trimBy_eq_self fun c hc => isNumberBlank_numeral (h c hc)

/-- The text of an integer is read as it. -/
theorem readInteger?_text (i : Int) : readInteger? (toString i) = some i := by
  have digits := allDigits_toDigits i.natAbs
  have nonempty : Nat.toDigits 10 i.natAbs ≠ [] := Nat.toDigits_ne_nil
  have group := digitGroup?_digits digits nonempty
  have value : digitsValue (Nat.toDigits 10 i.natAbs) = i.natAbs := Nat.ofDigitChars_ten_toDigits
  rw [readInteger?, trimBy_numeral (isNumeral_int i), Json.toList_toString_int]
  by_cases negative : i < 0
  · have read := signedDigits?_signed true digits nonempty
    rw [if_pos rfl, if_pos rfl, value] at read
    rw [if_pos negative, List.singleton_append, read]
    congr 1
    omega
  · rw [if_neg negative, List.nil_append, signedDigits?, takeSign_digits digits]
    simp [group, ofDigits_digits, value]
    omega

end Integers

private theorem cutAt_append {p : Char → Bool} {as : List Char} (h : ∀ c ∈ as, p c = false)
    (bs : List Char) : cutAt p (as ++ bs) = (as ++ (cutAt p bs).1, (cutAt p bs).2) := by
  induction as with
  | nil => rfl
  | cons c as ih =>
    have head : p c = false := h c List.mem_cons_self
    have tail := ih fun d hd => h d (List.mem_cons_of_mem c hd)
    rw [List.cons_append, cutAt, tail]
    simp [head]

private theorem cutAt_mark {p : Char → Bool} {mark : Char} (found : p mark = true) {as : List Char}
    (before : ∀ c ∈ as, p c = false) (rest : Option (List Char)) :
    cutAt p (as ++ rest.elim [] (mark :: ·)) = (as, rest) := by
  rw [cutAt_append before]
  rcases rest with _ | cs
  · simp [cutAt]
  · simp [cutAt, found]

theorem decimal?_parts {whole : List Char} {part power : Option (List Char)} {x : Int}
    (wholeDigits : AllDigits whole) (nonempty : whole ≠ []) (partDigits : AllDigits (part.getD []))
    (exponent : power.elim (some 0) signedDigits? = some x) :
    decimal? (whole ++ (part.elim [] ('.' :: ·) ++ power.elim [] ('e' :: ·))) =
      some (digitsValue (whole ++ part.getD []), x - (part.getD []).length) := by
  have exponentless {cs : List Char} (digits : AllDigits cs) :
      ∀ c ∈ cs, (decide (c = 'e') || decide (c = 'E')) = false := by
    intro c hc
    have small : c ≠ 'e' := ne_of_digit (digits c hc) rfl
    have capital : c ≠ 'E' := ne_of_digit (digits c hc) rfl
    simp [small, capital]
  -- No mark of an exponent stands before the exponent, and no point before the point.
  have mantissa : ∀ c ∈ whole ++ part.elim [] ('.' :: ·),
      (decide (c = 'e') || decide (c = 'E')) = false := by
    refine List.forall_mem_append.mpr ⟨exponentless wholeDigits, ?_⟩
    rcases part with _ | ds
    · exact List.forall_mem_nil _
    · exact List.forall_mem_cons.mpr ⟨rfl, exponentless partDigits⟩
  have pointless : ∀ c ∈ whole, decide (c = '.') = false := by
    intro c hc
    have point : c ≠ '.' := ne_of_digit (wholeDigits c hc) rfl
    simp [point]
  have atExponent : cutAt (fun c => c = 'e' || c = 'E')
      (whole ++ (part.elim [] ('.' :: ·) ++ power.elim [] ('e' :: ·))) =
        (whole ++ part.elim [] ('.' :: ·), power) := by
    rw [← List.append_assoc]
    exact cutAt_mark rfl mantissa power
  have atPoint : cutAt (fun c => c = '.') (whole ++ part.elim [] ('.' :: ·)) = (whole, part) :=
    cutAt_mark rfl pointless part
  have written : (whole.map fun c => c.toNat - 48).isEmpty = false := by
    rcases whole with _ | ⟨c, cs⟩
    · exact absurd rfl nonempty
    · rfl
  have sum : ofDigits ((whole.map fun c => c.toNat - 48) ++
      (part.getD []).map fun c => c.toNat - 48) = digitsValue (whole ++ part.getD []) := by
    rw [← List.map_append, ofDigits_digits]
  simp only [decimal?, atExponent, atPoint, optionalGroup?_digits wholeDigits,
    optionalGroup?_digits partDigits, Option.bind_eq_bind, Option.bind_some, written, Bool.false_and,
    Bool.false_eq_true, if_false, sum, List.length_map]
  rcases power with _ | ps
  · cases exponent
    rfl
  · have signed : signedDigits? ps = some x := exponent
    simp only [signed]
    rfl

end RungLogic.Number
