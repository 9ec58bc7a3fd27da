import RungLogic.Proofs.Scan.Consistency

/-!
Visits: the evaluations of one element, one after the other. A timer or counter makes one step at
each visit, from the state in which the visit before has left it. What its inputs have been up to
then is told by edges: where a signal rises or falls, and since when it is on.
-/

set_option autoImplicit false
set_option relaxedAutoImplicit false

namespace RungLogic.Scan

/-- One evaluation of an element: what is around it, the signals on its inputs, and the memory it
finds. -/
structure Visit where
  around : Surroundings
  inputs : Table Signal
  memory : Memory

namespace Visit

def result (v : Visit) (e : Element) : Except Error Signal := (apply v.around e v.inputs v.memory).1

def states (v : Visit) (e : Element) : Table ElementState :=
  (apply v.around e v.inputs v.memory).2.states

def found (v : Visit) (e : Element) : Option ElementState := v.memory.states.value? e.id

def left (v : Visit) (e : Element) : Option ElementState := (v.states e).value? e.id

def computes (v : Visit) (e : Element) : Computed := compute v.around e v.inputs (v.found e)

private theorem of_computes {v : Visit} {e : Element} {s : Signal} {state : ElementState}
    (result : (v.computes e).result = .ok s) (next : (v.computes e).state = some state) :
    v.result e = .ok s ∧ v.left e = some state := by
  have settled : computed v.around e v.inputs v.memory = v.computes e :=
    Computed.settle_of_ne (by rw [computes, found] at result; simp [result]) e
  refine ⟨?_, ?_⟩
  · rw [Visit.result, apply_of_result (settled ▸ result)]
  · rw [left, states, states_apply, states_remember, settled, next, if_pos rfl, Option.some_or]

/-- Visits with the given surroundings and inputs, of which each finds the memory that the one before
it has left. -/
def chain (e : Element) (around : Nat → Surroundings) (inputs : Nat → Table Signal) : Nat → Visit
  | 0 => ⟨around 0, inputs 0, {}⟩
  | k + 1 =>
    let last := chain e around inputs k
    ⟨around (k + 1), inputs (k + 1), (apply last.around e last.inputs last.memory).2⟩

theorem around_chain (e : Element) (around : Nat → Surroundings) (inputs : Nat → Table Signal)
    (k : Nat) : (chain e around inputs k).around = around k := by
  cases k <;> rfl

theorem inputs_chain (e : Element) (around : Nat → Surroundings) (inputs : Nat → Table Signal)
    (k : Nat) : (chain e around inputs k).inputs = inputs k := by
  cases k <;> rfl

end Visit

/-- The visits of an element up to the one at `k`, from reset state. Each finds the element in the
state in which the one before has left it, whatever happens to the rest of the memory in between. -/
structure Visited (e : Element) (v : Nat → Visit) (k : Nat) : Prop where
  reset : (v 0).found e = none
  carried : ∀ i < k, (v (i + 1)).found e = (v i).left e

theorem visited_chain (e : Element) (around : Nat → Surroundings) (inputs : Nat → Table Signal)
    (k : Nat) : Visited e (Visit.chain e around inputs) k :=
  ⟨rfl, fun _ _ => rfl⟩

/-- What holds of the first visit, and of each further one when it held of the visit before, holds
of the last. -/
theorem Visited.run {e : Element} {v : Nat → Visit} {k : Nat} (visited : Visited e v k)
    (holds : Nat → Signal → ElementState → Prop)
    (first : (v 0).found e = none → ∃ s state, ((v 0).computes e).result = .ok s ∧
      ((v 0).computes e).state = some state ∧ holds 0 s state)
    (next : ∀ i < k, ∀ s state, holds i s state → (v (i + 1)).found e = some state →
      ∃ s' state', ((v (i + 1)).computes e).result = .ok s' ∧
        ((v (i + 1)).computes e).state = some state' ∧ holds (i + 1) s' state') :
    ∃ s state, (v k).result e = .ok s ∧ (v k).left e = some state ∧ holds k s state := by
  induction k with
  | zero =>
    obtain ⟨s, state, hresult, hstate, h⟩ := first visited.reset
    obtain ⟨hresult, hleft⟩ := Visit.of_computes hresult hstate
    exact ⟨s, state, hresult, hleft, h⟩
  | succ k ih =>
    have prior : Visited e v k :=
      ⟨visited.reset, fun i hi => visited.carried i (Nat.lt_succ_of_lt hi)⟩
    obtain ⟨s, state, -, hleft, h⟩ := ih prior fun i hi => next i (Nat.lt_succ_of_lt hi)
    have hfound : (v (k + 1)).found e = some state := by
      rw [visited.carried k (Nat.lt_succ_self k), hleft]
    obtain ⟨s', state', hresult, hstate, h'⟩ := next k (Nat.lt_succ_self k) s state h hfound
    obtain ⟨hresult, hleft⟩ := Visit.of_computes hresult hstate
    exact ⟨s', state', hresult, hleft, h'⟩

/-- A signal one visit earlier; it was off before the first. -/
def previous (b : Nat → Bool) : Nat → Bool
  | 0 => false
  | k + 1 => b k

/-- Whether a signal goes on at `k`. -/
def rises (b : Nat → Bool) (k : Nat) : Bool := b k && !previous b k

/-- Whether a signal goes off at `k`. -/
def falls (b : Nat → Bool) (k : Nat) : Bool := previous b k && !b k

/-- A signal has been on from `i` to `k`, and it went on at `i`. -/
structure OnSince (b : Nat → Bool) (i k : Nat) : Prop where
  le : i ≤ k
  rises : rises b i = true
  on : ∀ j, i ≤ j → j ≤ k → b j = true

/-- A signal went off at `i`, and not again up to `k`. -/
structure LastFall (b : Nat → Bool) (i k : Nat) : Prop where
  le : i ≤ k
  falls : falls b i = true
  last : ∀ j, i < j → j ≤ k → Scan.falls b j = false

section Edges

variable {b : Nat → Bool} {i j k : Nat}

theorem rises_succ : rises b (k + 1) = (b (k + 1) && !b k) := rfl

theorem falls_succ : falls b (k + 1) = (b k && !b (k + 1)) := rfl

theorem OnSince.refl (h : Scan.rises b k = true) : OnSince b k k := by
  refine ⟨Nat.le_refl k, h, fun j hkj hjk => ?_⟩
  obtain rfl := Nat.le_antisymm hjk hkj
  exact (Bool.and_eq_true_iff.mp h).1

theorem OnSince.succ (h : OnSince b i k) (on : b (k + 1) = true) : OnSince b i (k + 1) := by
  refine ⟨Nat.le_succ_of_le h.le, h.rises, fun j hij hjk => ?_⟩
  rcases Nat.le_succ_iff.mp hjk with hjk | rfl
  · exact h.on j hij hjk
  · exact on

/-- The later of two rises would be preceded by an evaluation with the signal on. -/
private theorem OnSince.le_of (h : OnSince b i k) (h' : OnSince b j k) : j ≤ i := by
  by_contra hlt
  obtain ⟨j, rfl⟩ : ∃ m, j = m + 1 := ⟨j - 1, by omega⟩
  have on : b j = true := h.on j (by omega) (by have := h'.le; omega)
  have rises := h'.rises
  rw [rises_succ, on] at rises
  simp at rises

theorem OnSince.unique (h : OnSince b i k) (h' : OnSince b j k) : i = j :=
  Nat.le_antisymm (h'.le_of h) (h.le_of h')

theorem LastFall.refl (h : Scan.falls b k = true) : LastFall b k k :=
  ⟨Nat.le_refl k, h, fun j hkj hjk => absurd hkj (by omega)⟩

/-- A fall is the last one when the signal has stayed off since. -/
theorem LastFall.of_off (falls : Scan.falls b i = true) (le : i ≤ k)
    (off : ∀ j, i ≤ j → j ≤ k → b j = false) : LastFall b i k := by
  refine ⟨le, falls, fun j hij hjk => ?_⟩
  obtain ⟨j, rfl⟩ : ∃ m, j = m + 1 := ⟨j - 1, by omega⟩
  rw [falls_succ, off j (by omega) (by omega), Bool.false_and]

theorem not_falls_of_off (off : ∀ j ≤ k, b j = false) (le : i ≤ k) : falls b i = false := by
  cases i with
  | zero => rfl
  | succ i => rw [falls_succ, off i (Nat.le_of_succ_le le), Bool.false_and]

theorem lastFall_succ_iff (quiet : Scan.falls b (k + 1) = false) :
    LastFall b i (k + 1) ↔ LastFall b i k := by
  constructor
  · intro h
    have hne : i ≠ k + 1 := by
      rintro rfl
      rw [h.falls] at quiet
      cases quiet
    have := h.le
    exact ⟨by omega, h.falls, fun j hij hjk => h.last j hij (Nat.le_succ_of_le hjk)⟩
  · intro h
    refine ⟨Nat.le_succ_of_le h.le, h.falls, fun j hij hjk => ?_⟩
    rcases Nat.le_succ_iff.mp hjk with hjk | rfl
    · exact h.last j hij hjk
    · exact quiet

theorem LastFall.unique (h : LastFall b i k) (h' : LastFall b j k) : i = j := by
  rcases Nat.lt_trichotomy i j with hlt | rfl | hgt
  · have := h.last j hlt h'.le
    rw [h'.falls] at this
    cases this
  · rfl
  · have := h'.last i hgt h.le
    rw [h.falls] at this
    cases this

end Edges

end RungLogic.Scan
