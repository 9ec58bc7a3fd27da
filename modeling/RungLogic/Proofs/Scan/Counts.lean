import Mathlib.Data.Finset.Card
import Mathlib.Logic.Function.Iterate
import Mathlib.Order.Interval.Finset.Nat
import RungLogic.Proofs.Scan.Visits

/-!
Counts: what counters make of their pulses over time. The count has moved once for each rise of the
pulse since it was last set, up to the preset or down to zero.
-/

set_option autoImplicit false
set_option relaxedAutoImplicit false

namespace RungLogic

namespace Scan

/-- How many rises of the pulse among the first `n` visits have not been cleared, at the visit itself or
since. -/
def edges (pulse clear : Nat → Bool) (n : Nat) : Nat :=
  ((Finset.range n).filter fun i =>
    rises pulse i = true ∧ ∀ j ∈ Finset.Ico i n, clear j = false).card

private theorem edges_zero (pulse clear : Nat → Bool) : edges pulse clear 0 = 0 := rfl

private theorem edges_succ_of_clear {pulse clear : Nat → Bool} {n : Nat} (cleared : clear n = true) :
    edges pulse clear (n + 1) = 0 := by
  rw [edges, Finset.card_eq_zero, Finset.filter_eq_empty_iff]
  rintro i hi ⟨-, kept⟩
  have := kept n (Finset.mem_Ico.mpr ⟨Nat.le_of_lt_succ (Finset.mem_range.mp hi), Nat.lt_succ_self n⟩)
  rw [cleared] at this
  cases this

private theorem edges_succ_of_keep {pulse clear : Nat → Bool} {n : Nat} (kept : clear n = false) :
    edges pulse clear (n + 1) = edges pulse clear n + if rises pulse n then 1 else 0 := by
  -- The last visit clears nothing, so of the visits before it the same count.
  have same : ∀ i, (∀ j ∈ Finset.Ico i (n + 1), clear j = false) ↔
      ∀ j ∈ Finset.Ico i n, clear j = false := by
    intro i
    constructor
    · intro h j hj
      exact h j (Finset.Ico_subset_Ico_right (Nat.le_succ n) hj)
    · intro h j hj
      obtain ⟨hij, hjn⟩ := Finset.mem_Ico.mp hj
      rcases Nat.lt_succ_iff_lt_or_eq.mp hjn with hjn | rfl
      · exact h j (Finset.mem_Ico.mpr ⟨hij, hjn⟩)
      · exact kept
  have none : ∀ j ∈ Finset.Ico n n, clear j = false := by simp
  simp only [edges, same, Finset.range_add_one, Finset.filter_insert]
  by_cases rise : rises pulse n = true
  · rw [if_pos ⟨rise, none⟩, if_pos rise, Finset.card_insert_of_notMem (by simp)]
  · rw [if_neg (fun h => rise h.1), if_neg rise, Nat.add_zero]

end Scan

namespace Counter

open Scan (edges previous rises edges_succ_of_clear edges_succ_of_keep)

/-- A counter that has moved once for each edge has done so after the next evaluation as well. -/
private theorem next_counted (start : Int) (move : Int → Int) (pulse clear : Nat → Bool) (n : Nat) :
    (⟨move^[edges pulse clear n] start, previous pulse n⟩ : Counter).next (pulse n)
        (if clear n then some start else none) move =
      ⟨move^[edges pulse clear (n + 1)] start, pulse n⟩ := by
  rcases cleared : clear n with _ | _
  case true =>
    rw [edges_succ_of_clear cleared]
    rfl
  case false =>
    have edge : (pulse n && !previous pulse n) = rises pulse n := rfl
    simp only [edges_succ_of_keep cleared, next, edge, Bool.false_eq_true, if_false]
    rcases rise : rises pulse n with _ | _
    · simp
    · have on : pulse n = true := (Bool.and_eq_true_iff.mp rise).1
      simp only [on, if_true, Function.iterate_succ_apply']

private theorem iterate_up {preset : Int} (nonneg : 0 ≤ preset) (n : Nat) :
    (fun c => min (c + 1) preset)^[n] 0 = min preset n := by
  induction n with
  | zero => simp [nonneg]
  | succ n ih =>
    rw [Function.iterate_succ_apply', ih]
    omega

private theorem iterate_down {preset : Int} (nonneg : 0 ≤ preset) (n : Nat) :
    (fun c => max (c - 1) 0)^[n] preset = max 0 (preset - n) := by
  induction n with
  | zero => simp [nonneg]
  | succ n ih =>
    rw [Function.iterate_succ_apply', ih]
    omega

end Counter

namespace Scan

variable {e : Element} {v : Nat → Visit} {k : Nat} {pulse clear : Nat → Bool}

/-- A counter that begins where it is set to has moved once for each edge, at every visit. -/
private theorem Visited.counted (visited : Visited e v k) (pulse clear : Nat → Bool) (start : Int)
    (move : Int → Int) (shows : Int → Bool)
    (computes : ∀ i ≤ k, ∀ c, ((v i).found e).getD (.counter ⟨start, false⟩) = .counter c →
      let next := c.next (pulse i) (if clear i then some start else none) move
      ((v i).computes e).result = .ok (.truth (shows next.count)) ∧
        ((v i).computes e).state = some (.counter next)) :
    let count := move^[edges pulse clear (k + 1)] start
    (v k).result e = .ok (.truth (shows count)) ∧ (v k).left e = some (.counter ⟨count, pulse k⟩) := by
  obtain ⟨s, state, hresult, hleft, rfl, rfl⟩ := visited.run
    (fun i s state => s = .truth (shows (move^[edges pulse clear (i + 1)] start)) ∧
      state = .counter ⟨move^[edges pulse clear (i + 1)] start, pulse i⟩)
    (by
      intro found
      obtain ⟨result, next⟩ := computes 0 (Nat.zero_le k) ⟨start, false⟩ (by rw [found]; rfl)
      have counted := Counter.next_counted start move pulse clear 0
      rw [edges_zero, Function.iterate_zero_apply, previous] at counted
      exact ⟨_, _, result, next, by rw [counted], by rw [counted]⟩)
    (by
      rintro i hi s state ⟨rfl, rfl⟩ found
      obtain ⟨result, next⟩ := computes (i + 1) hi _ (by rw [found]; rfl)
      have counted := Counter.next_counted start move pulse clear (i + 1)
      rw [previous] at counted
      exact ⟨_, _, result, next, by rw [counted], by rw [counted]⟩)
  exact ⟨hresult, hleft⟩

private theorem counter_of_counter {set : Bool} {fresh c : Counter} {step : Counter → Counter × Bool}
    {state : Option ElementState} (h : state.getD (.counter fresh) = .counter c) :
    counter e set fresh step state =
      { result := .ok (.truth (step c).2), state := some (.counter (step c).1)
        notices := countNotices e } := by
  rcases state with _ | ⟨t⟩ | ⟨c⟩
  · cases h
    rfl
  · cases h
  · cases h
    rfl

private theorem Visited.countedUp (visited : Visited e v k) (kind : e.kind = .counterUp)
    (nonneg : 0 ≤ Preset.count e.preset) (pulsed : ∀ i ≤ k, isOn (v i).inputs "cu" = pulse i)
    (reset : ∀ i ≤ k, isOn (v i).inputs "r" = clear i) :
    let count := min (Preset.count e.preset) (edges pulse clear (k + 1))
    (v k).result e = .ok (.truth (decide (Preset.count e.preset ≤ count))) ∧
      (v k).left e = some (.counter ⟨count, pulse k⟩) := by
  have counted := visited.counted pulse clear 0 (fun n => min (n + 1) (Preset.count e.preset))
    (fun n => decide (Preset.count e.preset ≤ n)) (by
      intro i hi c found
      rw [Visit.computes, compute, kind]
      simp only [counterUp, counter_of_counter found, pulsed i hi, reset i hi]
      exact ⟨rfl, rfl⟩)
  rwa [Counter.iterate_up nonneg] at counted

private theorem Visited.countedDown (visited : Visited e v k) (kind : e.kind = .counterDown)
    (nonneg : 0 ≤ Preset.count e.preset) (pulsed : ∀ i ≤ k, isOn (v i).inputs "cd" = pulse i)
    (load : ∀ i ≤ k, isOn (v i).inputs "ld" = clear i) :
    let count := max 0 (Preset.count e.preset - edges pulse clear (k + 1))
    (v k).result e = .ok (.truth (decide (count = 0))) ∧
      (v k).left e = some (.counter ⟨count, pulse k⟩) := by
  have counted := visited.counted pulse clear (Preset.count e.preset) (fun n => max (n - 1) 0)
    (fun n => decide (n = 0)) (by
      intro i hi c found
      rw [Visit.computes, compute, kind]
      simp only [counterDown, counter_of_counter found, pulsed i hi, load i hi]
      exact ⟨rfl, rfl⟩)
  rwa [Counter.iterate_down nonneg] at counted

/-- Counters count exactly. Since its last reset a counter has counted every rise of its pulse up to
the preset, and is on when it is there; since its last load, or since the beginning, a counter that
counts down has lost one for every rise, and is on at zero. A rise at the reset or load itself is not
counted. The count stays between zero and the preset. -/
theorem counters_count_edges (visited : Visited e v k) (nonneg : 0 ≤ Preset.count e.preset) :
    let preset := Preset.count e.preset
    let risen : Int := edges pulse clear (k + 1)
    (e.kind = .counterUp →
      (∀ i ≤ k, isOn (v i).inputs "cu" = pulse i) → (∀ i ≤ k, isOn (v i).inputs "r" = clear i) →
      let count := min preset risen
      (v k).result e = .ok (.truth (decide (preset ≤ count))) ∧
        (v k).left e = some (.counter ⟨count, pulse k⟩) ∧ 0 ≤ count ∧ count ≤ preset) ∧
    (e.kind = .counterDown →
      (∀ i ≤ k, isOn (v i).inputs "cd" = pulse i) → (∀ i ≤ k, isOn (v i).inputs "ld" = clear i) →
      let count := max 0 (preset - risen)
      (v k).result e = .ok (.truth (decide (count = 0))) ∧
        (v k).left e = some (.counter ⟨count, pulse k⟩) ∧ 0 ≤ count ∧ count ≤ preset) := by
  intro preset risen
  have positive : 0 ≤ risen := Int.natCast_nonneg _
  refine ⟨fun kind pulsed reset => ?_, fun kind pulsed load => ?_⟩
  · obtain ⟨result, left⟩ := visited.countedUp kind nonneg pulsed reset
    exact ⟨result, left, le_min nonneg positive, min_le_left _ _⟩
  · obtain ⟨result, left⟩ := visited.countedDown kind nonneg pulsed load
    exact ⟨result, left, le_max_left _ _, max_le nonneg (by omega)⟩

/-- A pulse that goes on at a reset and stays on is not counted, the two rises after it are. The counter
that counts down from two is loaded at its first evaluation. -/
theorem tallies_count_edges :
    let tally : Element := ⟨"tally", .counterUp, {}, [("preset", .num (.int 2))]⟩
    let stock : Element := ⟨"stock", .counterDown, {}, [("preset", .text "2")]⟩
    let around : Nat → Surroundings := fun _ => ⟨⟨"n", [tally, stock], []⟩, [], .int 0, false⟩
    let pulse : Nat → Bool := fun i => [true, false, true, true, false, true, false].getD i true
    let clear : Nat → Bool := fun i => i = 2
    let first : Nat → Bool := fun i => i = 0
    let up := Visit.chain tally around fun i => [("cu", .truth (pulse i)), ("r", .truth (clear i))]
    let down := Visit.chain stock around fun i => [("cd", .truth (pulse i)), ("ld", .truth (first i))]
    Visited tally up 7 ∧ Visited stock down 2 ∧
      0 ≤ Preset.count tally.preset ∧ 0 ≤ Preset.count stock.preset ∧
      (∀ i ≤ 7, isOn (up i).inputs "cu" = pulse i) ∧ (∀ i ≤ 7, isOn (up i).inputs "r" = clear i) ∧
      (∀ i ≤ 2, isOn (down i).inputs "cd" = pulse i) ∧
      (∀ i ≤ 2, isOn (down i).inputs "ld" = first i) ∧
      (up 7).result tally = .ok (.truth true) ∧ (up 7).left tally = some (.counter ⟨2, true⟩) ∧
      (down 2).result stock = .ok (.truth false) ∧
      (down 2).left stock = some (.counter ⟨1, true⟩) := by
  intro tally stock around pulse clear first up down
  have upVisited : Visited tally up 7 := visited_chain _ _ _ 7
  have downVisited : Visited stock down 2 := visited_chain _ _ _ 2
  have cu : ∀ i ≤ 7, isOn (up i).inputs "cu" = pulse i := fun i _ => by rw [Visit.inputs_chain]; rfl
  have r : ∀ i ≤ 7, isOn (up i).inputs "r" = clear i := fun i _ => by rw [Visit.inputs_chain]; rfl
  have cd : ∀ i ≤ 2, isOn (down i).inputs "cd" = pulse i :=
    fun i _ => by rw [Visit.inputs_chain]; rfl
  have ld : ∀ i ≤ 2, isOn (down i).inputs "ld" = first i :=
    fun i _ => by rw [Visit.inputs_chain]; rfl
  obtain ⟨hup, hupLeft, -⟩ := (counters_count_edges upVisited (by decide)).1 rfl cu r
  obtain ⟨hdown, hdownLeft, -⟩ := (counters_count_edges downVisited (by decide)).2 rfl cd ld
  have two : edges pulse clear 8 = 2 := by decide
  have one : edges pulse first 3 = 1 := by decide
  rw [two] at hup hupLeft
  rw [one] at hdown hdownLeft
  exact ⟨upVisited, downVisited, by decide, by decide, cu, r, cd, ld, hup, hupLeft, hdown, hdownLeft⟩

end Scan

end RungLogic
