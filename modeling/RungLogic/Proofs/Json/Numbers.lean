import RungLogic.Json.Reader
import RungLogic.Json.Writer

/-!
Integers in JSON texts. An integer is written with its decimal digits, which are read back as far as
they go: up to a character that does not go on with the number.
-/

set_option autoImplicit false
set_option relaxedAutoImplicit false

namespace RungLogic.Json

/-- What may follow a number. -/
def EndsNumber (rest : List Char) : Prop :=
  ∀ c ∈ rest.head?, c.isDigit = false ∧ c ≠ '.' ∧ c ≠ 'e' ∧ c ≠ 'E'

private theorem takeDigits_append {ds rest : List Char} (digits : ∀ c ∈ ds, c.isDigit = true)
    (ends : EndsNumber rest) : takeDigits (ds ++ rest) = (ds, rest) := by
  have stop : rest.takeWhile Char.isDigit = [] ∧ rest.dropWhile Char.isDigit = rest := by
    cases rest with
    | nil => exact ⟨rfl, rfl⟩
    | cons c cs =>
      have hc : c.isDigit = false := (ends c rfl).1
      simp [hc]
  rw [takeDigits, List.takeWhile_append_of_pos digits, List.dropWhile_append_of_pos digits, stop.1,
    stop.2, List.append_nil]

private theorem digitsValue_toDigits (k : Nat) : digitsValue (Nat.toDigits 10 k) = k :=
  Nat.ofDigitChars_ten_toDigits

private theorem head_toDigits {k : Nat} (h : 0 < k) :
    ∃ c cs, Nat.toDigits 10 k = c :: cs ∧ c ≠ '0' := by
  induction k using Nat.base_induction 10 (by decide) with
  | single m small =>
    refine ⟨m.digitChar, [], Nat.toDigits_of_lt_base small, ?_⟩
    rw [ne_eq, Nat.digitChar_eq_zero]
    omega
  | digit m d hd hm ih =>
    obtain ⟨c, cs, hcs, hc⟩ := ih hm
    refine ⟨c, cs ++ Nat.toDigits 10 d, ?_, hc⟩
    rw [← Nat.toDigits_append_toDigits (by decide) hm hd, hcs, List.cons_append]

theorem isDigit_of_mem_toDigits {k : Nat} : ∀ c ∈ Nat.toDigits 10 k, c.isDigit = true := by
  intro c hc
  exact Nat.isDigit_of_mem_toDigits (by decide) (by decide) hc

private theorem wholePart?_toDigits (k : Nat) {rest : List Char} (ends : EndsNumber rest) :
    wholePart? (Nat.toDigits 10 k ++ rest) = some (Nat.toDigits 10 k, rest) := by
  rcases Nat.eq_zero_or_pos k with rfl | positive
  · rw [Nat.toDigits_zero]
    rfl
  · obtain ⟨c, cs, hcs, hc⟩ := head_toDigits positive
    have taken := takeDigits_append (isDigit_of_mem_toDigits (k := k)) ends
    rw [hcs] at taken ⊢
    rw [List.cons_append] at taken ⊢
    rw [wholePart?, taken]
    rintro more same
    exact hc (List.cons.inj same).1

private theorem number?_toDigits (negative : Bool) (k : Nat) {rest : List Char}
    (ends : EndsNumber rest) :
    number? negative (Nat.toDigits 10 k ++ rest) =
      some (.int (if negative then -(k : Int) else k), rest) := by
  have fraction : fractionPart rest = ([], rest) := by
    unfold fractionPart
    split
    · exact absurd rfl (ends '.' rfl).2.1
    · rfl
  have exponent : exponentPart rest = (none, rest) := by
    cases rest with
    | nil => rfl
    | cons c cs =>
      obtain ⟨-, -, small, capital⟩ := ends c rfl
      simp [exponentPart, small, capital]
  simp [number?, wholePart?_toDigits k ends, fraction, exponent, digitsValue_toDigits]

theorem toList_toString_int (i : Int) :
    (toString i).toList = (if i < 0 then ['-'] else []) ++ Nat.toDigits 10 i.natAbs := by
  rw [Int.toString_eq_repr, Int.repr_eq_if]
  by_cases h : 0 ≤ i
  · have value : i.toNat = i.natAbs := by omega
    have negative : ¬i < 0 := by omega
    rw [if_pos h, if_neg negative, Nat.toList_repr, value, List.nil_append]
  · have value : (-i).toNat = i.natAbs := by omega
    have negative : i < 0 := by omega
    rw [if_neg h, if_pos negative, String.toList_append, Nat.toList_repr, value]
    rfl

private theorem scalar?_digit {c : Char} (h : c.isDigit = true) (cs : List Char) :
    scalar? (c :: cs) = (number? false (c :: cs)).map fun r => (.num r.1, r.2) := by
  have ne {d : Char} (hd : d.isDigit = false) : c ≠ d := by
    rintro rfl
    rw [h] at hd
    cases hd
  have letters : c ≠ 'n' ∧ c ≠ 't' ∧ c ≠ 'f' ∧ c ≠ 'N' ∧ c ≠ 'I' ∧ c ≠ '-' :=
    ⟨ne rfl, ne rfl, ne rfl, ne rfl, ne rfl, ne rfl⟩
  rw [scalar?.eq_def]
  split <;> simp_all

theorem scalar?_int (i : Int) {rest : List Char} (ends : EndsNumber rest) :
    scalar? ((toString i).toList ++ rest) = some (.num (.int i), rest) := by
  obtain ⟨c, cs, hcs⟩ := List.exists_cons_of_ne_nil (Nat.toDigits_ne_nil (n := i.natAbs) (b := 10))
  have hc : c.isDigit = true := isDigit_of_mem_toDigits c (by rw [hcs]; exact List.mem_cons_self)
  rw [toList_toString_int]
  by_cases h : i < 0
  · have read := number?_toDigits true i.natAbs ends
    have value : -(i.natAbs : Int) = i := by omega
    rw [if_pos h, List.append_assoc]
    rw [hcs, List.cons_append] at read ⊢
    have hI : c ≠ 'I' := by
      rintro rfl
      cases hc
    have minus : scalar? ('-' :: c :: (cs ++ rest)) =
        (number? true (c :: (cs ++ rest))).map fun r => (.num r.1, r.2) := by
      rw [scalar?.eq_def]
      split <;> simp_all
    show scalar? ('-' :: c :: (cs ++ rest)) = _
    rw [minus, read, if_pos rfl, value]
    rfl
  · have read := number?_toDigits false i.natAbs ends
    have value : (i.natAbs : Int) = i := by omega
    rw [if_neg h, List.nil_append]
    rw [hcs, List.cons_append] at read ⊢
    rw [scalar?_digit hc, read, if_neg Bool.false_ne_true, value]
    rfl

end RungLogic.Json
