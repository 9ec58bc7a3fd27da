import RungLogic.Proofs.Number.Digits
import RungLogic.Proofs.Number.Shortest

/-!
Numerals: the texts of numbers. The decimal that is read from a numeral is the one that was written,
whatever its layout; so the text of a number is read as that number.
-/

set_option autoImplicit false
set_option relaxedAutoImplicit false

namespace RungLogic.Number

/-- Characters that write a number with a point or an exponent. -/
structure Writes (cs : List Char) (v : ℚ) : Prop where
  numerals : ∀ c ∈ cs, isNumeral c = true
  head : ∃ c ∈ cs.head?, c.isDigit = true
  mark : '.' ∈ cs ∨ 'e' ∈ cs
  read : ∃ d k, decimal? cs = some (d, k) ∧ (d * 10 ^ k : ℚ) = v

private theorem writes_parts {whole : List Char} (part power : Option (List Char)) (x : Int) {v : ℚ}
    (wholeDigits : AllDigits whole) (nonempty : whole ≠ []) (partDigits : AllDigits (part.getD []))
    (powerNumerals : ∀ c ∈ power.getD [], isNumeral c = true)
    (marked : part.isSome = true ∨ power.isSome = true)
    (exponent : power.elim (some 0) signedDigits? = some x)
    (value : (digitsValue (whole ++ part.getD []) * 10 ^ (x - (part.getD []).length) : ℚ) = v) :
    Writes (whole ++ (part.elim [] ('.' :: ·) ++ power.elim [] ('e' :: ·))) v := by
  refine ⟨?_, ?_, ?_, ?_⟩
  · intro c hc
    rcases List.mem_append.mp hc with hc | hc
    · exact isNumeral_digit (wholeDigits c hc)
    · rcases List.mem_append.mp hc with hc | hc
      · rcases part with _ | ds
        · cases hc
        · rcases List.mem_cons.mp hc with rfl | hc
          · rfl
          · exact isNumeral_digit (partDigits c hc)
      · rcases power with _ | ps
        · cases hc
        · rcases List.mem_cons.mp hc with rfl | hc
          · rfl
          · exact powerNumerals c hc
  · rcases whole with _ | ⟨c, cs⟩
    · exact absurd rfl nonempty
    · exact ⟨c, rfl, wholeDigits c List.mem_cons_self⟩
  · rcases marked with marked | marked
    · obtain ⟨ds, rfl⟩ := Option.isSome_iff_exists.mp marked
      exact .inl (by simp)
    · obtain ⟨ps, rfl⟩ := Option.isSome_iff_exists.mp marked
      exact .inr (by simp)
  · exact ⟨_, _, decimal?_parts wholeDigits nonempty partDigits exponent, value⟩

section Decimals

variable {c : Decimal} {place : Int}

private theorem toList_digits (c : Decimal) :
    (toString c.digits).toList = Nat.toDigits 10 c.digits := Nat.toList_repr

private theorem toList_zeros (n : Nat) : (zeros n).toList = List.replicate n '0' :=
  String.toList_ofList

private theorem digitsValue_digits (c : Decimal) :
    digitsValue (Nat.toDigits 10 c.digits) = c.digits := Nat.ofDigitChars_ten_toDigits

private theorem noPower : ∀ a ∈ (none : Option (List Char)).getD [], isNumeral a = true :=
  fun _ h => by cases h

private theorem writes_below_one (small : place ≤ 0)
    (start : place = ((Nat.toDigits 10 c.digits).length : Int) + c.exponent) :
    Writes (positional (toString c.digits) place).toList c.value := by
  have digits := allDigits_toDigits c.digits
  generalize hds : Nat.toDigits 10 c.digits = ds at *
  have text : (positional (toString c.digits) place).toList =
      ['0'] ++ ('.' :: (List.replicate (-place).toNat '0' ++ ds) ++ []) := by
    simp only [positional, if_pos small, String.toList_append, toList_zeros, toList_digits, hds]
    simp
  have value : digitsValue (['0'] ++ (List.replicate (-place).toNat '0' ++ ds)) = c.digits := by
    rw [← hds]
    exact digitsValue_append_toDigits ((-place).toNat + 1) c.digits
  rw [text]
  refine writes_parts (some (List.replicate (-place).toNat '0' ++ ds)) none 0 (allDigits_zeros 1)
    (List.cons_ne_nil _ _) ((allDigits_zeros _).append digits) noPower (.inl rfl) rfl ?_
  have point : 0 - ((List.replicate (-place).toNat '0' ++ ds).length : Int) = c.exponent := by
    rw [List.length_append, List.length_replicate]
    omega
  rw [Option.getD_some, value, point, Decimal.value]

private theorem writes_whole (large : 0 < place)
    (whole : ((Nat.toDigits 10 c.digits).length : Int) ≤ place)
    (start : place = ((Nat.toDigits 10 c.digits).length : Int) + c.exponent) :
    Writes (positional (toString c.digits) place).toList c.value := by
  have digits := allDigits_toDigits c.digits
  have nonempty : Nat.toDigits 10 c.digits ≠ [] := Nat.toDigits_ne_nil
  generalize hds : Nat.toDigits 10 c.digits = ds at *
  have text : (positional (toString c.digits) place).toList =
      ds ++ List.replicate (place.toNat - ds.length) '0' ++ ('.' :: ['0'] ++ []) := by
    simp only [positional, if_neg large.not_ge, toList_digits, hds, if_pos whole,
      String.toList_append, toList_zeros]
    simp
  have value : digitsValue (ds ++ List.replicate (place.toNat - ds.length) '0' ++ ['0']) =
      10 ^ (place.toNat - ds.length + 1) * c.digits := by
    rw [List.append_assoc, ← List.replicate_succ', digitsValue_append_zeros, ← hds,
      digitsValue_digits]
  rw [text]
  refine writes_parts (some ['0']) none 0 (digits.append (allDigits_zeros _)) ?_ (allDigits_zeros 1)
    noPower (.inl rfl) rfl ?_
  · simp [nonempty]
  · have exponent : c.exponent = ((place.toNat - ds.length + 1 : ℕ) : Int) + (0 - (1 : ℕ)) := by
      omega
    rw [Option.getD_some, value, Decimal.value, exponent, zpow_add₀ (by norm_num), zpow_natCast,
      List.length_singleton]
    push_cast
    ring

private theorem writes_across (large : 0 < place)
    (inside : place < ((Nat.toDigits 10 c.digits).length : Int))
    (start : place = ((Nat.toDigits 10 c.digits).length : Int) + c.exponent) :
    Writes (positional (toString c.digits) place).toList c.value := by
  have digits := allDigits_toDigits c.digits
  have nonempty : Nat.toDigits 10 c.digits ≠ [] := Nat.toDigits_ne_nil
  have value := digitsValue_digits c
  generalize hds : Nat.toDigits 10 c.digits = ds at *
  have text : (positional (toString c.digits) place).toList =
      ds.take place.toNat ++ ('.' :: ds.drop place.toNat ++ []) := by
    simp only [positional, if_neg large.not_ge, toList_digits, hds, if_neg inside.not_ge,
      String.toList_append, String.toList_ofList]
    simp
  rw [text]
  refine writes_parts (some (ds.drop place.toNat)) none 0 ?_ ?_ ?_ noPower (.inl rfl) rfl ?_
  · exact fun a ha => digits a (List.mem_of_mem_take ha)
  · have : place.toNat ≠ 0 := by omega
    simp [nonempty, this]
  · exact fun a ha => digits a (List.mem_of_mem_drop ha)
  · have point : 0 - ((ds.drop place.toNat).length : Int) = c.exponent := by
      rw [List.length_drop]
      omega
    rw [Option.getD_some, List.take_append_drop, value, point, Decimal.value]

private theorem writes_positional
    (start : place = ((Nat.toDigits 10 c.digits).length : Int) + c.exponent) :
    Writes (positional (toString c.digits) place).toList c.value := by
  rcases le_or_gt place 0 with small | large
  · exact writes_below_one small start
  · rcases le_or_gt ((Nat.toDigits 10 c.digits).length : Int) place with whole | inside
    · exact writes_whole large whole start
    · exact writes_across large inside start

private theorem exists_power (l : Layout) (exponent : Int) :
    ∃ ps, ((if exponent < 0 then "e-" else "e+") ++
        zeros (l.width - (toString exponent.natAbs).length) ++ toString exponent.natAbs).toList =
          'e' :: ps ∧
      signedDigits? ps = some exponent ∧ ∀ a ∈ ps, isNumeral a = true := by
  obtain ⟨size, hsize⟩ : ∃ n, l.width - (toString exponent.natAbs).length = n := ⟨_, rfl⟩
  have group : AllDigits (List.replicate size '0' ++ Nat.toDigits 10 exponent.natAbs) :=
    (allDigits_zeros size).append (allDigits_toDigits _)
  refine ⟨(if decide (exponent < 0) then '-' else '+') ::
    (List.replicate size '0' ++ Nat.toDigits 10 exponent.natAbs), ?_, ?_, ?_⟩
  · have written : (toString exponent.natAbs).toList = Nat.toDigits 10 exponent.natAbs :=
      Nat.toList_repr
    rw [String.toList_append, String.toList_append, written, toList_zeros, hsize]
    by_cases negative : exponent < 0
    · simp [negative]
    · simp [negative]
  · rw [signedDigits?_signed _ group (by simp), digitsValue_append_toDigits]
    by_cases negative : exponent < 0
    · simp only [negative, decide_true, if_true]
      congr 1
      omega
    · simp only [negative, decide_false, Bool.false_eq_true, if_false]
      congr 1
      omega
  · intro a ha
    rcases List.mem_cons.mp ha with rfl | ha
    · split <;> rfl
    · exact isNumeral_digit (group a ha)

private theorem writes_scientific (l : Layout) {exponent : Int}
    (start : exponent = ((Nat.toDigits 10 c.digits).length : Int) + c.exponent - 1) :
    Writes (scientific l (toString c.digits) exponent).toList c.value := by
  have digits := allDigits_toDigits c.digits
  have read := digitsValue_digits c
  have listed := toList_digits c
  obtain ⟨ps, power, signed, numerals⟩ := exists_power l exponent
  rcases hds : Nat.toDigits 10 c.digits with _ | ⟨a, _ | ⟨b, rest⟩⟩
  · exact absurd hds Nat.toDigits_ne_nil
  · have text : (scientific l (toString c.digits) exponent).toList = [a] ++ ([] ++ 'e' :: ps) := by
      rw [hds] at listed
      simp only [scientific, listed]
      rw [String.append_assoc, String.append_assoc, String.toList_append, ← String.append_assoc, power,
        listed]
      rfl
    rw [text]
    rw [hds] at digits read start
    refine writes_parts none (some ps) exponent digits (List.cons_ne_nil a []) (fun _ h => by cases h)
      numerals (.inr rfl) signed ?_
    have point : exponent - (([] : List Char).length : ℕ) = c.exponent := by
      simp only [List.length_cons, List.length_nil] at start ⊢
      omega
    rw [Option.getD_none, List.append_nil, read, point, Decimal.value]
  · have text : (scientific l (toString c.digits) exponent).toList =
        [a] ++ ('.' :: b :: rest ++ 'e' :: ps) := by
      rw [hds] at listed
      simp only [scientific, listed]
      rw [String.append_assoc, String.append_assoc, String.toList_append, ← String.append_assoc, power,
        String.toList_ofList]
      rfl
    rw [text]
    rw [hds] at digits read start
    refine writes_parts (some (b :: rest)) (some ps) exponent ?_ (List.cons_ne_nil a []) ?_
      numerals (.inl rfl) signed ?_
    · exact fun d hd => digits d (List.mem_cons.mpr (.inl (List.mem_singleton.mp hd)))
    · exact fun d hd => digits d (List.mem_cons_of_mem a hd)
    · have point : exponent - ((b :: rest).length : ℕ) = c.exponent := by
        simp only [List.length_cons] at start ⊢
        omega
      rw [Option.getD_some, List.singleton_append, read, point, Decimal.value]

private theorem writes_text (l : Layout) (c : Decimal) : Writes (c.text l).toList c.value := by
  have size : (toString c.digits).length = (Nat.toDigits 10 c.digits).length := by
    rw [← toList_digits, String.length_toList]
  unfold Decimal.text
  dsimp only
  rw [size]
  split
  · exact writes_positional rfl
  · exact writes_scientific l rfl

end Decimals

/-- The real that is read from a text without sign and blanks. -/
def unsigned? (cs : List Char) : Option Float :=
  match namedReal? cs with
  | some x => some x
  | none => (decimal? cs).map fun d => ofDecimal d.1 d.2

/-- How a real is spelled: a sign, and characters that are read as the real without it. -/
structure Spelling (x : Float) (negative : Bool) (cs : List Char) (y : Float) : Prop where
  text : (realText x).toList = (if negative then ['-'] else []) ++ cs
  numerals : ∀ c ∈ cs, isNumeral c = true
  head : ∀ c ∈ cs.head?, c ≠ '+' ∧ c ≠ '-'
  mark : ∃ c ∈ cs, c = '.' ∨ c = 'e' ∨ c = 'n'
  read : unsigned? cs = some y
  value : (if negative then -y else y) = x

namespace Spelling

variable {x y : Float} {negative : Bool} {cs : List Char}

private theorem isNumeral_text (h : Spelling x negative cs y) :
    ∀ c ∈ (realText x).toList, isNumeral c = true := by
  intro c hc
  rw [h.text] at hc
  rcases List.mem_append.mp hc with hc | hc
  · split at hc
    · rw [List.mem_singleton.mp hc]
      rfl
    · cases hc
  · exact h.numerals c hc

private theorem takeSign_text (h : Spelling x negative cs y) :
    takeSign (realText x).toList = (negative, cs) := by
  rw [h.text]
  rcases negative with _ | _
  · rw [takeSign.eq_def]
    rcases cs with _ | ⟨c, cs⟩
    · rfl
    · obtain ⟨plus, minus⟩ := h.head c rfl
      simp [plus, minus]
  · rfl

theorem readReal?_text (h : Spelling x negative cs y) : readReal? (realText x) = some x := by
  have read := h.read
  unfold unsigned? at read
  simp only [readReal?, trimBy_numeral h.isNumeral_text, h.takeSign_text]
  rcases named : namedReal? cs with _ | z
  · simp only [named] at read ⊢
    rw [read, ← h.value]
    rfl
  · simp only [named] at read ⊢
    cases read
    rw [← h.value]
    rfl

/-- The spelling of a real has a mark that integers do not have. -/
theorem readInteger?_text (h : Spelling x negative cs y) : readInteger? (realText x) = none := by
  obtain ⟨c, hc, marks⟩ := h.mark
  have group : digitGroup? cs = none := by
    rcases read : digitGroup? cs with _ | ds
    · rfl
    · rcases digit_of_digitGroup? read c hc with rfl | digit
      · exact absurd marks (by decide)
      · rcases marks with rfl | rfl | rfl <;> exact absurd digit (by decide)
  simp [readInteger?, trimBy_numeral h.isNumeral_text, signedDigits?, h.takeSign_text, group]

end Spelling

private theorem namedReal?_digit {cs : List Char} (head : ∃ c ∈ cs.head?, c.isDigit = true) :
    namedReal? cs = none := by
  obtain ⟨c, hc, digit⟩ := head
  obtain ⟨rest, rfl⟩ := List.head?_eq_some_iff.mp hc
  have lower : c.toLower = c := by
    obtain ⟨-, high⟩ := Char.isDigit_iff_toNat.mp digit
    have high' : c.toNat ≤ 57 := high
    refine dif_neg fun upper => ?_
    have low : 65 ≤ c.toNat := upper.1
    omega
  have different {d : Char} (hd : d.isDigit = false) (ds : List Char) :
      String.ofList ((c :: rest).map Char.toLower) ≠ String.ofList (d :: ds) := by
    intro same
    have lists := String.ofList_injective same
    rw [List.map_cons, lower] at lists
    exact ne_of_digit digit hd (List.cons.inj lists).1
  have inf : String.ofList ((c :: rest).map Char.toLower) ≠ "inf" := different (d := 'i') rfl _
  have infinity : String.ofList ((c :: rest).map Char.toLower) ≠ "infinity" :=
    different (d := 'i') rfl _
  have nan : String.ofList ((c :: rest).map Char.toLower) ≠ "nan" := different (d := 'n') rfl _
  simp only [namedReal?, decide_eq_false inf, decide_eq_false infinity, nan, Bool.or_self,
    Bool.false_eq_true, if_false]

private theorem unpacked_negated {x : Float} {m : Nat} {e : Int} (canonical : Canonical m e)
    (below : e ≤ 971) (h : unpacked x = .finite .positive m e canonical.positive) :
    unpacked (-x) = .finite .negative m e canonical.positive := by
  rw [unpacked_neg, h]
  exact unpack_pack canonical below .negative

section Spellings

variable {x : Float} {negative : Bool} {m : Nat} {e : Int}

private theorem eq_of_form {y : Float} (h : Form.ofReal y = Form.ofReal x) : y = x :=
  unpacked_inj (by rw [unpacked_eq x, unpacked_eq y, h])

private theorem spelling_undefined (form : Form.ofReal x = .undefined) :
    Spelling x false ['n', 'a', 'n'] (0.0 / 0.0) := by
  have nan : Form.ofReal (0.0 / 0.0) = .undefined := by decide +kernel
  refine ⟨?_, by simp [isNumeral], by simp, by simp, rfl, eq_of_form (nan.trans form.symm)⟩
  rw [realText, form]
  rfl

private theorem spelling_infinite (form : Form.ofReal x = .infinite negative) :
    Spelling x negative ['i', 'n', 'f'] (1.0 / 0.0) := by
  refine ⟨?_, by simp [isNumeral], by simp, by simp, rfl, eq_of_form (Eq.trans ?_ form.symm)⟩
  · rw [realText, form]
    cases negative <;> rfl
  · cases negative <;> decide +kernel

private theorem toList_realText (form : Form.ofReal x = .finite negative m e) :
    (realText x).toList = (if negative then ['-'] else []) ++
      (if m = 0 then ['0', '.', '0'] else ((shortest m e).text layout).toList) := by
  rw [realText, form, Form.text, String.toList_append]
  congr 1
  · cases negative <;> rfl
  · split <;> rfl

private theorem spelling_zero (form : Form.ofReal x = .finite negative 0 e) :
    Spelling x negative ['0', '.', '0'] (ofDecimal 0 (-1)) := by
  refine ⟨toList_realText form, by simp [isNumeral], by simp, by simp, rfl, unpacked_inj ?_⟩
  have zero : (Form.ofReal (if negative then -ofDecimal 0 (-1) else ofDecimal 0 (-1))) =
      .finite negative 0 (-1074) := by
    cases negative <;> decide +kernel
  rw [unpacked_eq x, form, unpacked_eq, zero]
  rfl

private theorem exists_spelling_finite (form : Form.ofReal x = .finite negative m e)
    (positive : 0 < m) : ∃ cs y, Spelling x negative cs y := by
  obtain ⟨canonical, below⟩ := canonical_of_form form positive
  have within := within_shortest canonical below
  obtain ⟨numerals, head, mark, d, k, decimal, value⟩ := writes_text layout (shortest m e)
  rw [← value] at within
  -- The shortest decimal rounds to this real, so it is read as it.
  have read := unpacked_ofDecimal canonical below within
  have text := toList_realText form
  rw [if_neg positive.ne'] at text
  refine ⟨_, ofDecimal d k, ⟨text, numerals, ?_, ?_, ?_, ?_⟩⟩
  · intro c hc
    obtain ⟨c', hc', digit⟩ := head
    obtain rfl : c' = c := Option.some.inj (hc'.symm.trans hc)
    exact ⟨ne_of_digit digit rfl, ne_of_digit digit rfl⟩
  · rcases mark with mark | mark
    · exact ⟨'.', mark, .inl rfl⟩
    · exact ⟨'e', mark, .inr (.inl rfl)⟩
  · simp only [unsigned?, namedReal?_digit head, decimal, Option.map_some]
  · refine unpacked_inj ?_
    rw [unpacked_eq x, form, Form.unpacked, dif_pos positive]
    cases negative
    · exact read
    · exact unpacked_negated canonical below read

theorem exists_spelling (x : Float) : ∃ negative cs y, Spelling x negative cs y := by
  rcases form : Form.ofReal x with _ | negative | ⟨negative, m, e⟩
  · exact ⟨_, _, _, spelling_undefined form⟩
  · exact ⟨_, _, _, spelling_infinite form⟩
  · rcases Nat.eq_zero_or_pos m with rfl | positive
    · exact ⟨_, _, _, spelling_zero form⟩
    · exact ⟨_, exists_spelling_finite form positive⟩

end Spellings

private theorem readReal?_realText (x : Float) : readReal? (realText x) = some x := by
  obtain ⟨negative, cs, y, spelling⟩ := exists_spelling x
  exact spelling.readReal?_text

theorem isNumeral_text (a : Number) : ∀ c ∈ a.text.toList, isNumeral c = true := by
  rcases a with i | x
  · exact isNumeral_int i
  · obtain ⟨negative, cs, y, spelling⟩ := exists_spelling x
    exact spelling.isNumeral_text

theorem trim_text (a : Number) : Text.trim a.text = a.text := by
  rw [Text.trim, Text.trimBy_eq_self fun c hc => isBlank_numeral (isNumeral_text a c hc),
    String.ofList_toList]

theorem text_ne_empty (a : Number) : a.text ≠ "" := by
  rcases a with i | x
  · intro empty
    have read := readInteger?_text i
    rw [show toString i = "" from empty] at read
    cases read
  · intro empty
    have read := readReal?_realText x
    rw [show realText x = "" from empty] at read
    cases read

end RungLogic.Number
