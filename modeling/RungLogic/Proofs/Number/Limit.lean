import RungLogic.Number.Limit
import RungLogic.Proofs.Number.Digits

/-!
Numbers within the limit on digits. What is read as an integer can be written again, since its numeral had no
more digits than the limit.
-/

set_option autoImplicit false
set_option relaxedAutoImplicit false

namespace RungLogic

private theorem Text.digitValue?_lt {c : Char} {d : Nat} (h : digitValue? c = some d) : d < 10 := by
  simp only [digitValue?] at h
  split at h
  · split at h
    · rename_i range
      simp only [Bool.and_eq_true, decide_eq_true_eq] at range
      cases h
      omega
    · cases h
  · obtain ⟨least, found, rfl⟩ := Option.map_eq_some_iff.mp h
    have range := List.find?_some found
    simp only [Bool.and_eq_true, decide_eq_true_eq] at range
    omega

namespace Number

theorem isLong_int_iff {i : Int} : isLong (.int i) = true ↔ 10 ^ digitLimit ≤ i.natAbs := by
  rw [isLong, decide_eq_true_iff, Nat.pow_eq]

private theorem foldl_lt {ds : List Nat} (digits : ∀ d ∈ ds, d < 10) {n k : Nat} (h : n < 10 ^ k) :
    ds.foldl (fun n d => 10 * n + d) n < 10 ^ (k + ds.length) := by
  induction ds generalizing n k with
  | nil => exact h
  | cons d ds ih =>
    have first : d < 10 := digits d List.mem_cons_self
    have next : 10 * n + d < 10 ^ (k + 1) := by
      rw [Nat.pow_succ]
      omega
    have rest := ih (fun a ha => digits a (List.mem_cons_of_mem d ha)) next
    rw [List.foldl_cons, List.length_cons]
    rwa [Nat.add_assoc, Nat.add_comm 1] at rest

private theorem ofDigits_lt {ds : List Nat} (digits : ∀ d ∈ ds, d < 10) : ofDigits ds < 10 ^ ds.length := by
  have h := foldl_lt digits (n := 0) (k := 0) (by decide)
  rwa [Nat.zero_add] at h

theorem ofDigits_nines (k : Nat) : ofDigits (List.replicate k 9) + 1 = 10 ^ k := by
  induction k with
  | zero => rfl
  | succ k ih =>
    have last : ofDigits (List.replicate (k + 1) 9) = 10 * ofDigits (List.replicate k 9) + 9 := by
      rw [List.replicate_succ', ofDigits, List.foldl_append]
      rfl
    rw [last, Nat.pow_succ]
    omega

private theorem digits_of_digitGroup? {cs : List Char} {ds : List Nat} (h : digitGroup? cs = some ds) :
    ∀ d ∈ ds, d < 10 := by
  induction cs using digitGroup?.induct generalizing ds with
  | case1 => cases h
  | case2 c =>
    rw [digitGroup?, Option.map_eq_some_iff] at h
    obtain ⟨d, hd, rfl⟩ := h
    exact List.forall_mem_singleton.mpr (Text.digitValue?_lt hd)
  | case3 c rest ih =>
    rw [digitGroup?] at h
    obtain ⟨d, hd, h⟩ := Option.bind_eq_some_iff.mp h
    obtain ⟨ds', hds, same⟩ := Option.bind_eq_some_iff.mp h
    cases same
    exact List.forall_mem_cons.mpr ⟨Text.digitValue?_lt hd, ih hds⟩
  | case4 c rest nonempty notMark ih =>
    rw [digitGroup?.eq_4 c rest nonempty notMark] at h
    obtain ⟨d, hd, h⟩ := Option.bind_eq_some_iff.mp h
    obtain ⟨ds', hds, same⟩ := Option.bind_eq_some_iff.mp h
    cases same
    exact List.forall_mem_cons.mpr ⟨Text.digitValue?_lt hd, ih hds⟩

private theorem signedDigits?_eq (cs : List Char) :
    signedDigits? cs = (digitGroup? (takeSign cs).2).map fun ds =>
      if (takeSign cs).1 = true then -(ofDigits ds : Int) else ofDigits ds := by
  rcases sign : takeSign cs with ⟨negative, unsigned⟩
  cases group : digitGroup? unsigned <;> simp [signedDigits?, sign, group]

theorem not_isLong_of_readInteger? {s : String} {i : Int} (read : readInteger? s = some i)
    (fits : excess? s = none) : isLong (.int i) = false := by
  rw [readInteger?, signedDigits?_eq] at read
  obtain ⟨ds, group, rfl⟩ := Option.map_eq_some_iff.mp read
  have whole : (takeSign (Text.trimBy isNumberBlank s.toList)).2.takeWhile
      (fun c => c = '_' || (Text.digitValue? c).isSome) =
        (takeSign (Text.trimBy isNumberBlank s.toList)).2 := by
    refine List.takeWhile_eq_self_iff.mpr fun c hc => ?_
    simpa using digit_of_digitGroup? group c hc
  have short : ds.length ≤ digitLimit := by
    simp only [excess?, whole] at fits
    rw [group, Option.bind_some, ite_eq_right_iff] at fits
    exact Nat.le_of_not_lt fun long => by cases fits long
  have bound : ofDigits ds < 10 ^ digitLimit :=
    Nat.lt_of_lt_of_le (ofDigits_lt (digits_of_digitGroup? group))
      (Nat.pow_le_pow_right (by decide) short)
  rw [Bool.eq_false_iff, ne_eq, isLong_int_iff]
  split
  · rw [Int.natAbs_neg, Int.natAbs_natCast]
    exact Nat.not_le_of_lt bound
  · rw [Int.natAbs_natCast]
    exact Nat.not_le_of_lt bound

end Number

end RungLogic
