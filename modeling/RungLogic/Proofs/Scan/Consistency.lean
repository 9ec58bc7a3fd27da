import RungLogic.Proofs.Scan.Descent

/-!
Consistent states: timers have states of timers and counters have states of counters. While that
holds each element can be applied and each output can be read, and what an application leaves is
consistent again.
-/

set_option autoImplicit false
set_option relaxedAutoImplicit false

namespace RungLogic

def ElementState.fits : ElementState → Kind → Bool
  | .timer _, k => k.isTimer
  | .counter _, k => k.isCounter

namespace Scan

/-- Under the ids of a network, timers have states of timers and counters have states of counters.
-/
def Consistent (n : Network) (states : Table ElementState) : Prop :=
  ∀ e ∈ n.elements, ∀ state, states.value? e.id = some state → state.fits e.kind = true

instance (n : Network) (states : Table ElementState) : Decidable (Consistent n states) :=
  decidable_of_iff (∀ e ∈ n.elements, (states.value? e.id).all (·.fits e.kind) = true)
    (by simp only [Consistent, Option.all_eq_true])

theorem consistent_nil (n : Network) : Consistent n [] := by
  intro e _ state h
  cases h

/-- A state of the sort that elements of the kind do not have. -/
def Mismatched (k : Kind) (state : Option ElementState) : Prop :=
  ∃ st, state = some st ∧ st.fits k = false

theorem Consistent.not_mismatched {n : Network} {states : Table ElementState}
    (h : Consistent n states) {e : Element} (he : e ∈ n.elements) :
    ¬ Mismatched e.kind (states.value? e.id) := by
  rintro ⟨st, found, unfit⟩
  rw [h e he st found] at unfit
  cases unfit

/-- A result that is there, or that misses because numbers do not go together. -/
def Computed.Settles (c : Computed) : Prop :=
  (∃ s, c.result = .ok s) ∨ c.result = .error .tooLarge

private theorem Computed.Settles.result_settle {c : Computed} (h : c.Settles) (e : Element) :
    ∃ s, (c.settle e).result = .ok s := by
  rcases h with ⟨s, h⟩ | h
  · exact ⟨s, by simp [Computed.settle, h]⟩
  · exact ⟨.truth false, by simp [Computed.settle, h]⟩

theorem Computed.settle_of_ne {c : Computed} (h : c.result ≠ .error .tooLarge) (e : Element) :
    c.settle e = c := by
  unfold Computed.settle
  split
  · rename_i hlarge
    exact (h hlarge).elim
  · rfl

private theorem settles_truth (b : Bool) : (Computed.truth b).Settles := .inl ⟨.truth b, rfl⟩

private theorem settles_ofTimer (o : Option (Timer × Bool)) : (ofTimer o).Settles := by
  rcases o with _ | ⟨t, on⟩
  · exact .inr rfl
  · exact .inl ⟨.truth on, rfl⟩

private theorem settles_ofNumber? (o : Option Number) :
    (∃ s, ofNumber? o = .ok s) ∨ ofNumber? o = .error .tooLarge := by
  rcases o with _ | x
  · exact .inr rfl
  · exact .inl ⟨.num x, rfl⟩

private theorem settles_twoSided (store : Store) (e : Element) (inputs : Table Signal)
    {f : Signal → Signal → Except Error Signal × List Notice}
    (h : ∀ a b, (∃ s, (f a b).1 = .ok s) ∨ (f a b).1 = .error .tooLarge) :
    (twoSided store e inputs f).Settles :=
  h (firstSide inputs) (secondSide store e inputs).1

private theorem settles_quotient (a b : Signal) :
    (∃ s, (quotient a b).1 = .ok s) ∨ (quotient a b).1 = .error .tooLarge := by
  unfold quotient
  split
  · exact .inl ⟨.num (.int 0), rfl⟩
  · exact settles_ofNumber? _

/-- What an element computes settles, unless it finds a state of the other sort. -/
private theorem settles_or_mismatched (w : Surroundings) (e : Element) (inputs : Table Signal)
    (state : Option ElementState) : (compute w e inputs state).Settles ∨
      ((compute w e inputs state).result = .error .part ∧ Mismatched e.kind state) := by
  unfold compute
  cases hkind : e.kind with
  | timerOn =>
    rcases state with _ | ⟨t⟩ | ⟨c⟩
    · exact .inl (settles_ofTimer _)
    · exact .inl (settles_ofTimer _)
    · dsimp only [timerOn]
      split
      · exact .inr ⟨rfl, _, rfl, rfl⟩
      · exact .inl (settles_ofTimer _)
  | timerOff =>
    rcases state with _ | ⟨t⟩ | ⟨c⟩
    · exact .inl (settles_ofTimer _)
    · exact .inl (settles_ofTimer _)
    · exact .inr ⟨rfl, _, rfl, rfl⟩
  | counterUp | counterDown =>
    rcases state with _ | ⟨t⟩ | ⟨c⟩
    · exact .inl (.inl ⟨_, rfl⟩)
    · dsimp only [counterUp, counterDown, counter]
      split
      · exact .inl (.inl ⟨_, rfl⟩)
      · exact .inr ⟨rfl, _, rfl, rfl⟩
    · exact .inl (.inl ⟨_, rfl⟩)
  | add | subtract | multiply => exact .inl (settles_twoSided _ _ _ fun a b => settles_ofNumber? _)
  | divide => exact .inl (settles_twoSided _ _ _ settles_quotient)
  | greaterThan | greaterEqual | equal | notEqual | lessEqual | lessThan =>
    exact .inl (settles_twoSided _ _ _ fun a b => .inl ⟨_, rfl⟩)
  | contact | contactNegated | coil | coilNegated | and | or | not | timerPulse | counterUpDown =>
    exact .inl (settles_truth _)

theorem state_ofTimer {o : Option (Timer × Bool)} {st : ElementState}
    (h : (ofTimer o).state = some st) : ∃ t on, o = some (t, on) ∧ st = .timer t := by
  rcases o with _ | ⟨t, on⟩
  · cases h
  · exact ⟨t, on, rfl, (Option.some.inj h).symm⟩

private theorem isTimer_ofTimer {o : Option (Timer × Bool)} {st : ElementState}
    (h : (ofTimer o).state = some st) : ∃ t, st = .timer t := by
  obtain ⟨t, -, -, hst⟩ := state_ofTimer h
  exact ⟨t, hst⟩

private theorem state_timerOn {now : Number} {e : Element} {inputs : Table Signal}
    {state : Option ElementState} {st : ElementState}
    (h : (timerOn now e inputs state).state = some st) : ∃ t, st = .timer t := by
  unfold timerOn at h
  split at h
  · exact isTimer_ofTimer h
  · exact isTimer_ofTimer h
  · split at h
    · cases h
    · exact isTimer_ofTimer h

private theorem state_timerOff {now : Number} {e : Element} {inputs : Table Signal}
    {state : Option ElementState} {st : ElementState}
    (h : (timerOff now e inputs state).state = some st) : ∃ t, st = .timer t := by
  unfold timerOff at h
  split at h
  · exact isTimer_ofTimer h
  · exact isTimer_ofTimer h
  · cases h

private theorem state_counter {e : Element} {set : Bool} {fresh : Counter}
    {step : Counter → Counter × Bool} {state : Option ElementState} {st : ElementState}
    (h : (counter e set fresh step state).state = some st) : ∃ c, st = .counter c := by
  unfold counter at h
  split at h
  · exact ⟨_, (Option.some.inj h).symm⟩
  · exact ⟨_, (Option.some.inj h).symm⟩
  · split at h
    · exact ⟨_, (Option.some.inj h).symm⟩
    · cases h

private theorem fits_compute {w : Surroundings} {e : Element} {inputs : Table Signal}
    {state : Option ElementState} {st : ElementState}
    (h : (compute w e inputs state).state = some st) : st.fits e.kind = true := by
  unfold compute at h
  cases hkind : e.kind with
  | timerOn =>
    rw [hkind] at h
    obtain ⟨t, rfl⟩ := state_timerOn h
    rfl
  | timerOff =>
    rw [hkind] at h
    obtain ⟨t, rfl⟩ := state_timerOff h
    rfl
  | counterUp | counterDown =>
    rw [hkind] at h
    obtain ⟨c, rfl⟩ := state_counter h
    rfl
  | _ =>
    rw [hkind] at h
    cases h

theorem fits_settle {w : Surroundings} {e : Element} {inputs : Table Signal}
    {state : Option ElementState} {st : ElementState}
    (h : ((compute w e inputs state).settle e).state = some st) : st.fits e.kind = true := by
  unfold Computed.settle at h
  split at h
  · cases h
  · exact fits_compute h

/-- What an element computes from its inputs and its state in memory. -/
def computed (w : Surroundings) (e : Element) (inputs : Table Signal) (m : Memory) : Computed :=
  (compute w e inputs (m.states.value? e.id)).settle e

theorem apply_of_result {w : Surroundings} {e : Element} {inputs : Table Signal} {m : Memory}
    {s : Signal} (h : (computed w e inputs m).result = .ok s) :
    apply w e inputs m = (.ok s, ((((m.remember e.id (computed w e inputs m).state).say
      (computed w e inputs m).notices).keep w e s).record e.id s)) := by
  rw [computed] at h
  simp only [apply, computed, h]

theorem apply_of_error {w : Surroundings} {e : Element} {inputs : Table Signal} {m : Memory}
    {fault : Error} (h : (computed w e inputs m).result = .error fault) :
    apply w e inputs m = (.error fault, (m.remember e.id (computed w e inputs m).state).say
      (computed w e inputs m).notices) := by
  rw [computed] at h
  simp only [apply, computed, h]

theorem states_keep (m : Memory) (w : Surroundings) (e : Element) (s : Signal) :
    (m.keep w e s).states = m.states := by
  unfold Memory.keep
  split <;> rfl

theorem states_apply (w : Surroundings) (e : Element) (inputs : Table Signal) (m : Memory) :
    (apply w e inputs m).2.states = (m.remember e.id (computed w e inputs m).state).states := by
  rcases h : (computed w e inputs m).result with fault | s
  · rw [computed] at h
    simp only [apply, h]
    rfl
  · rw [apply_of_result h]
    exact states_keep _ w e s

theorem states_remember (m : Memory) (id : String) (state : Option ElementState) (other : String) :
    (m.remember id state).states.value? other =
      if other = id then state.or (m.states.value? id) else m.states.value? other := by
  rcases state with _ | st
  · by_cases h : other = id
    · simp [Memory.remember, h]
    · simp [Memory.remember, h]
  · by_cases h : other = id
    · subst h
      simp [Memory.remember, Table.value?_put_self]
    · simp [Memory.remember, h, Table.value?_put_of_ne h]

theorem value?_of_keptSignal? {w : Surroundings} {e : Element} {m : Memory} {s : Signal}
    (h : m.keptSignal? w e = some s) : m.kept.value? e.id = some s := by
  unfold Memory.keptSignal? at h
  split at h
  · exact h
  · cases h

theorem kept_apply {w : Surroundings} {e : Element} {inputs : Table Signal} {m : Memory}
    {id : String} {s : Signal} (h : (apply w e inputs m).2.kept.value? id = some s) :
    (id = e.id ∧ (apply w e inputs m).1 = .ok s) ∨ m.kept.value? id = some s := by
  have hremember : ∀ state, (m.remember e.id state).kept = m.kept := by
    intro state
    cases state <;> rfl
  rcases hresult : (computed w e inputs m).result with fault | t
  · rw [computed] at hresult
    simp only [apply, hresult, Memory.say, hremember] at h
    exact .inr h
  · rw [apply_of_result hresult] at h ⊢
    simp only [Memory.record, Memory.keep] at h
    split at h
    · by_cases hid : id = e.id
      · rw [hid, Table.value?_put_self] at h
        exact .inl ⟨hid, congrArg Except.ok (Option.some.inj h)⟩
      · rw [Table.value?_put_of_ne hid] at h
        simp only [Memory.say, hremember] at h
        exact .inr h
    · simp only [Memory.say, hremember] at h
      exact .inr h

variable {n : Network}

theorem result_or_mismatched (w : Surroundings) (e : Element) (inputs : Table Signal) (m : Memory) :
    (∃ s, (computed w e inputs m).result = .ok s) ∨
      ((computed w e inputs m).result = .error .part ∧
        Mismatched e.kind (m.states.value? e.id)) := by
  rcases settles_or_mismatched w e inputs (m.states.value? e.id) with settles | ⟨part, mismatched⟩
  · exact .inl (settles.result_settle e)
  · have unsettled : (compute w e inputs (m.states.value? e.id)).result ≠ .error .tooLarge := by
      simp [part]
    refine .inr ⟨?_, mismatched⟩
    rw [computed, Computed.settle_of_ne unsettled, part]

theorem Consistent.apply {w : Surroundings} {e : Element} {m : Memory}
    (h : Consistent n m.states) (coherent : n.Coherent) (he : e ∈ n.elements)
    (inputs : Table Signal) : Consistent n (apply w e inputs m).2.states := by
  intro d hd st hst
  rw [states_apply, states_remember] at hst
  split at hst
  · rename_i same
    have hde : d = e := coherent.eq_of_id hd he same
    rcases hstate : (computed w e inputs m).state with _ | st'
    · rw [hstate] at hst
      exact hde ▸ h e he st hst
    · rw [hstate] at hst
      cases hst
      rw [hde]
      exact fits_settle hstate
  · exact h d hd st hst

private theorem isCounter_of_isTimer {k : Kind} (h : k.isTimer = true) : k.isCounter = false := by
  cases k <;> first | rfl | cases h

theorem portSignal_or_mismatched (states : Table ElementState) (e : Element) (port : String)
    (s : Signal) : (∃ t, portSignal states e port s = .ok t) ∨
      (portSignal states e port s = .error .part ∧ Mismatched e.kind (states.value? e.id)) := by
  unfold portSignal
  split
  · rename_i hport
    have htimer := (Bool.and_eq_true_iff.mp hport).2
    split
    · exact .inl ⟨_, rfl⟩
    · rename_i c hstate
      exact .inr ⟨rfl, _, hstate, isCounter_of_isTimer htimer⟩
    · exact .inl ⟨_, rfl⟩
  · split
    · rename_i hport
      have hcounter := (Bool.and_eq_true_iff.mp hport).2
      split
      · exact .inl ⟨_, rfl⟩
      · rename_i t hstate
        refine .inr ⟨rfl, _, hstate, Bool.eq_false_iff.mpr fun htimer => ?_⟩
        rw [isCounter_of_isTimer htimer] at hcounter
        cases hcounter
      · exact .inl ⟨_, rfl⟩
    · exact .inl ⟨_, rfl⟩

theorem Consistent.exists_portSignal {states : Table ElementState} {e : Element}
    (h : Consistent n states) (he : e ∈ n.elements) (port : String) (s : Signal) :
    ∃ t, portSignal states e port s = .ok t :=
  (portSignal_or_mismatched states e port s).resolve_right fun part => h.not_mismatched he part.2

end Scan

end RungLogic
