import Mathlib.Data.List.TakeWhile
import RungLogic.Preset

/-!
Literals of durations. A literal is `T#`, then decimal digits of any script, then a unit; it denotes the
number of its digits times the milliseconds of its unit. A text is taken for what it denotes without the
blanks around it, and for a second when it denotes nothing.
-/

set_option autoImplicit false
set_option relaxedAutoImplicit false

namespace RungLogic.Preset

/-- The units, and the milliseconds of each. -/
inductive Measures : List Char → Nat → Prop
  | milliseconds : Measures ['m', 's'] 1
  | seconds : Measures ['s'] 1000
  | minutes : Measures ['m'] 60000
  | hours : Measures ['h'] 3600000

/-- The characters are a literal that denotes so many milliseconds. -/
inductive Denotes : List Char → Nat → Prop
  | literal {digits unit : List Char} {values : List Nat} {factor : Nat} : digits ≠ [] →
      digits.map Text.digitValue? = values.map some → Measures unit factor →
      Denotes ('T' :: '#' :: (digits ++ unit)) (Number.ofDigits values * factor)

private theorem unitFactor?_eq_some_iff {unit : List Char} {factor : Nat} :
    unitFactor? unit = some factor ↔ Measures unit factor := by
  constructor
  · intro h
    unfold unitFactor? at h
    split at h
    · cases h
      exact .milliseconds
    · cases h
      exact .seconds
    · cases h
      exact .minutes
    · cases h
      exact .hours
    · cases h
  · rintro ⟨⟩ <;> rfl

private theorem isSome_of_values {digits : List Char} {values : List Nat}
    (spelled : digits.map Text.digitValue? = values.map some) :
    ∀ c ∈ digits, (Text.digitValue? c).isSome = true := by
  intro c hc
  have value : Text.digitValue? c ∈ values.map some := spelled ▸ List.mem_map_of_mem hc
  obtain ⟨n, -, value⟩ := List.mem_map.mp value
  rw [← value]
  rfl

private theorem filterMap_of_values {digits : List Char} {values : List Nat}
    (spelled : digits.map Text.digitValue? = values.map some) :
    digits.filterMap Text.digitValue? = values := by
  have through : digits.filterMap Text.digitValue? = (digits.map Text.digitValue?).filterMap id := by
    rw [List.filterMap_map]
    rfl
  rw [through, spelled, List.filterMap_map]
  exact List.filterMap_some

/-- A unit begins with no digit, so the digits before it end where it begins. -/
private theorem takeWhile_digits {digits unit : List Char} {factor : Nat}
    (all : ∀ c ∈ digits, (Text.digitValue? c).isSome = true) (measures : Measures unit factor) :
    (digits ++ unit).takeWhile (fun c => (Text.digitValue? c).isSome) = digits := by
  have stop : unit.takeWhile (fun c => (Text.digitValue? c).isSome) = [] := by
    cases measures <;> decide
  rw [List.takeWhile_append_of_pos all, stop, List.append_nil]

private theorem literal?_of_denotes {cs : List Char} {n : Nat} (h : Denotes cs n) :
    literal? cs = some n := by
  obtain ⟨some, spelled, measures⟩ := h
  have taken := takeWhile_digits (isSome_of_values spelled) measures
  have values := filterMap_of_values spelled
  simp [literal?, taken, some, values, unitFactor?_eq_some_iff.mpr measures]

private theorem denotes_of_literal? {cs : List Char} {n : Nat} (h : literal? cs = some n) :
    Denotes cs n := by
  unfold literal? at h
  split at h
  · rename_i rest
    let isDigit (c : Char) : Bool := (Text.digitValue? c).isSome
    let digits := rest.takeWhile isDigit
    change (if digits.isEmpty = true then none else _) = some n at h
    by_cases empty : digits.isEmpty = true
    · rw [if_pos empty] at h
      cases h
    · rw [if_neg empty] at h
      obtain ⟨factor, measures, rfl⟩ := Option.map_eq_some_iff.mp h
      have all : ∀ c ∈ digits, isDigit c = true := fun c hc => List.mem_takeWhile_imp hc
      have values : digits.map Text.digitValue? = (digits.filterMap Text.digitValue?).map some := by
        rw [List.map_filterMap_some_eq_filter_map_isSome, List.filter_eq_self.mpr]
        exact List.forall_mem_map.mpr all
      have whole : digits ++ rest.drop digits.length = rest :=
        List.prefix_iff_eq_append.mp (List.takeWhile_prefix isDigit)
      have denoted := Denotes.literal (by simpa using empty) values (unitFactor?_eq_some_iff.mp measures)
      rw [whole] at denoted
      exact denoted
  · cases h

theorem literal?_eq_some_iff {cs : List Char} {n : Nat} : literal? cs = some n ↔ Denotes cs n :=
  ⟨denotes_of_literal?, literal?_of_denotes⟩

theorem literal?_eq_none_iff {cs : List Char} : literal? cs = none ↔ ¬ ∃ n, Denotes cs n := by
  simp only [Option.eq_none_iff_forall_ne_some, ne_eq, literal?_eq_some_iff, not_exists]

theorem textDuration_of_denotes {s : String} {n : Nat} (h : Denotes (Text.trim s).toList n) :
    textDuration s = n := by
  rw [Text.trim, String.toList_ofList] at h
  rw [textDuration, literal?_eq_some_iff.mpr h]
  rfl

theorem textDuration_of_not_denotes {s : String} (h : ¬ ∃ n, Denotes (Text.trim s).toList n) :
    textDuration s = standardDuration := by
  rw [Text.trim, String.toList_ofList] at h
  rw [textDuration, literal?_eq_none_iff.mpr h]
  rfl

theorem excess?_of_denotes {s : String} {n : Nat} (h : Denotes (Text.trim s).toList n) :
    excess? s = if Number.digitLimit < literalLength (Text.trim s).toList then
      some (literalLength (Text.trim s).toList) else none := by
  rw [Text.trim, String.toList_ofList] at h ⊢
  simp [excess?, literal?_eq_some_iff.mpr h]

theorem excess?_of_not_denotes {s : String} (h : ¬ ∃ n, Denotes (Text.trim s).toList n) :
    excess? s = none := by
  rw [Text.trim, String.toList_ofList] at h
  simp [excess?, literal?_eq_none_iff.mpr h]

theorem duration_eq_zero_iff {v : Value} :
    duration v = 0 ↔ ∃ s, v = .text s ∧ Denotes (Text.trim s).toList 0 := by
  constructor
  · intro zero
    cases v with
    | text s =>
      by_cases denotes : ∃ n, Denotes (Text.trim s).toList n
      · obtain ⟨n, denotes⟩ := denotes
        obtain rfl : n = 0 := (textDuration_of_denotes denotes).symm.trans zero
        exact ⟨s, rfl, denotes⟩
      · cases (textDuration_of_not_denotes denotes).symm.trans zero
    | _ => cases zero
  · rintro ⟨s, rfl, denotes⟩
    exact textDuration_of_denotes denotes

end RungLogic.Preset
