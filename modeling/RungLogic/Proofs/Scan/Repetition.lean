import RungLogic.Proofs.Scan.Consistency

/-!
Repeated evaluation. Within a scan, a timer or counter that is evaluated again with the inputs it had
gives the result it gave, and is left as it was; only an off-delay timer that has just stopped forgets
how much time had elapsed, which it never asks for itself. And of the variables an element looks at
those alone that it consults.
-/

set_option autoImplicit false
set_option relaxedAutoImplicit false

namespace RungLogic

namespace Timer

variable {enabled on : Bool} {preset : Nat} {i : Int} {t next : Timer}

private theorem onDelayNext_again (h : t.onDelayNext enabled (.int i) = some next) :
    next.onDelayNext enabled (.int i) = some next := by
  unfold onDelayNext at h
  split at h
  · rename_i starts
    have henabled := (Bool.and_eq_true_iff.mp starts).1
    obtain rfl := Option.some.inj h
    simp [onDelayNext, henabled, Number.sub?_int]
  · split at h
    · rename_i henabled
      obtain ⟨elapsed, helapsed, rfl⟩ := Option.map_eq_some_iff.mp h
      simp [onDelayNext, henabled, helapsed]
    · rename_i hoff
      obtain rfl := Option.some.inj h
      simp [onDelayNext, hoff]

private theorem onDelay_again (h : t.onDelay enabled preset (.int i) = some (next, on)) :
    next.onDelay enabled preset (.int i) = some (next, on) := by
  obtain ⟨left, hleft, hboth⟩ := Option.map_eq_some_iff.mp h
  obtain ⟨rfl, hon⟩ := Prod.mk.inj hboth
  simp only [onDelay, onDelayNext_again hleft, Option.map_some, hon]

def unmeasured (t : Timer) : Timer := { t with elapsed := .int 0 }

theorem offDelay_unmeasured (enabled : Bool) (preset : Nat) (now : Number) (t : Timer) :
    t.unmeasured.offDelay enabled preset now = t.offDelay enabled preset now := rfl

/-- The preset has to be positive: a timer that has just been started would stop otherwise. -/
private theorem offDelayNext_again (positive : 0 < preset)
    (h : t.offDelayNext enabled preset (.int i) = some next) :
    ∃ again, next.offDelayNext enabled preset (.int i) = some again ∧
      again.unmeasured = next.unmeasured := by
  have early : Number.ge (.int 0) (.int preset) = false := by
    rw [Number.ge_int, decide_eq_false_iff_not]
    omega
  unfold offDelayNext at h
  split at h
  · rename_i starts
    have henabled : enabled = false := by simpa using (Bool.and_eq_true_iff.mp starts).1
    obtain rfl := Option.some.inj h
    refine ⟨_, ?_, rfl⟩
    simp [offDelayNext, henabled, Number.sub?_int, early]
  · split at h
    · obtain ⟨elapsed, helapsed, hnext⟩ := Option.map_eq_some_iff.mp h
      split at hnext
      -- The timer has stopped with its preset as the time elapsed, and does not say so again.
      · subst hnext
        refine ⟨{ wasOn := enabled }, ?_, rfl⟩
        simp [offDelayNext]
      · rename_i hearly
        subst hnext
        refine ⟨_, ?_, rfl⟩
        simp [offDelayNext, helapsed, hearly]
    · obtain rfl := Option.some.inj h
      refine ⟨{ wasOn := enabled }, ?_, rfl⟩
      simp [offDelayNext]

private theorem offDelay_again (positive : 0 < preset)
    (h : t.offDelay enabled preset (.int i) = some (next, on)) :
    ∃ again, next.offDelay enabled preset (.int i) = some (again, on) ∧
      again.unmeasured = next.unmeasured := by
  obtain ⟨left, hleft, hboth⟩ := Option.map_eq_some_iff.mp h
  obtain ⟨rfl, hon⟩ := Prod.mk.inj hboth
  obtain ⟨again, hagain, same⟩ := offDelayNext_again positive hleft
  have hrunning : again.running = left.running := (Timer.mk.inj same).1
  refine ⟨again, ?_, same⟩
  simp only [offDelay, hagain, Option.map_some, hrunning, hon]

end Timer

namespace Counter

private theorem next_again (pulse : Bool) (setTo : Option Int) (move : Int → Int) (c : Counter) :
    (c.next pulse setTo move).next pulse setTo move = c.next pulse setTo move := by
  rcases setTo with _ | count
  · cases pulse <;> cases hwas : c.wasOn <;> simp [next, hwas]
  · rfl

private theorem up_again (pulse reset : Bool) (preset : Int) (c : Counter) :
    (c.up pulse reset preset).1.up pulse reset preset = c.up pulse reset preset := by
  simp only [up, next_again]

private theorem down_again (pulse load : Bool) (preset : Int) (c : Counter) :
    (c.down pulse load preset).1.down pulse load preset = c.down pulse load preset := by
  simp only [down, next_again]

end Counter

/-- What of a state an element of that kind asks for itself: an off-delay timer does not ask for the
time that has elapsed. -/
def ElementState.core : Kind → ElementState → ElementState
  | .timerOff, .timer t => .timer t.unmeasured
  | _, state => state

theorem ElementState.core_of_ne {k : Kind} (h : k ≠ .timerOff) : core k = id := by
  funext state
  cases k <;> first | rfl | exact (h rfl).elim

/-- Blocks with a second side that an operand may stand for. -/
def Kind.takesOperand : Kind → Bool
  | add | subtract | multiply | divide => true
  | greaterThan | greaterEqual | equal | notEqual | lessEqual | lessThan => true
  | _ => false

/-- Whether an element looks at the variable of that name: a contact at its own variable, a block with
an operand at the one that the text of the operand may name. -/
def Element.Consults (e : Element) (name : String) : Prop :=
  (e.kind.isContact = true ∧ e.reference? = some name) ∨
    (e.kind.takesOperand = true ∧ ∃ s, e.operand = .text s ∧ Text.trim s = name)

namespace Scan

variable {w w' : Surroundings} {e : Element}

private theorem contactOn_congr {store store' : Store}
    (h : ∀ name, e.reference? = some name → store'.value? name = store.value? name) :
    contactOn store' e = contactOn store e := by
  unfold contactOn
  rcases hname : e.reference? with _ | name
  · rfl
  · simp only [h name hname]

private theorem secondSide_congr {store store' : Store}
    (h : ∀ s, e.operand = .text s → store'.value? (Text.trim s) = store.value? (Text.trim s))
    (inputs : Table Signal) : secondSide store' e inputs = secondSide store e inputs := by
  unfold secondSide
  split
  · rfl
  · split
    · rfl
    · rename_i s hs
      simp only [namedOperand, h s hs]
    · rfl

theorem compute_congr (hnow : w'.now = w.now)
    (hstore : ∀ name, e.Consults name → w'.store.value? name = w.store.value? name)
    (inputs : Table Signal) (state : Option ElementState) :
    compute w' e inputs state = compute w e inputs state := by
  have contacts : e.kind.isContact = true → contactOn w'.store e = contactOn w.store e := by
    intro hkind
    exact contactOn_congr fun name hname => hstore name (.inl ⟨hkind, hname⟩)
  have blocks : e.kind.takesOperand = true → ∀ f,
      twoSided w'.store e inputs f = twoSided w.store e inputs f := by
    intro hkind f
    have side := secondSide_congr (fun s hs => hstore _ (.inr ⟨hkind, s, hs, rfl⟩)) inputs
    simp only [twoSided, side]
  unfold compute
  cases hkind : e.kind with
  | contact | contactNegated => simp only [contacts (by rw [hkind]; rfl)]
  | timerOn | timerOff => simp only [hnow]
  | add | subtract | multiply | divide | greaterThan | greaterEqual | equal | notEqual | lessEqual
  | lessThan => exact blocks (by rw [hkind]; rfl) _
  | _ => rfl

private theorem compute_core (w : Surroundings) (e : Element) (inputs : Table Signal)
    (state : Option ElementState) :
    compute w e inputs (state.map (ElementState.core e.kind)) = compute w e inputs state := by
  by_cases hkind : e.kind = .timerOff
  · simp only [compute, hkind]
    rcases state with _ | ⟨t⟩ | ⟨c⟩
    · rfl
    · simp only [Option.map_some, ElementState.core, timerOff, Timer.offDelay_unmeasured]
    · rfl
  · rw [ElementState.core_of_ne hkind, Option.map_id, id]

theorem compute_of_core {state state' : Option ElementState}
    (h : state'.map (ElementState.core e.kind) = state.map (ElementState.core e.kind))
    (w : Surroundings) (inputs : Table Signal) :
    compute w e inputs state' = compute w e inputs state := by
  rw [← compute_core w e inputs state', h, compute_core]

private theorem timerOn_again {i : Int} {inputs : Table Signal} {state : Option ElementState}
    {next : ElementState} (h : (timerOn (.int i) e inputs state).state = some next) :
    timerOn (.int i) e inputs (some next) = timerOn (.int i) e inputs state := by
  -- Where a state is left at all, the evaluation is that of some timer.
  have hstep : ∃ t, timerOn (.int i) e inputs state = timerOn (.int i) e inputs (some (.timer t)) := by
    rcases state with _ | ⟨t⟩ | ⟨c⟩
    · exact ⟨{}, rfl⟩
    · exact ⟨t, rfl⟩
    · by_cases hon : isOn inputs "in" = true
      · simp only [timerOn, hon, if_true] at h
        cases h
      · refine ⟨{}, ?_⟩
        simp only [timerOn, hon, Bool.false_eq_true, if_false]
  obtain ⟨t, ht⟩ := hstep
  rw [ht] at h ⊢
  obtain ⟨left, on, hleft, rfl⟩ := state_ofTimer h
  simp only [timerOn, hleft, Timer.onDelay_again hleft]

private theorem timerOff_again {i : Int} (positive : 0 < Preset.duration e.preset)
    {inputs : Table Signal} {state : Option ElementState} {next : ElementState}
    (h : (timerOff (.int i) e inputs state).state = some next) :
    (timerOff (.int i) e inputs (some next)).result = (timerOff (.int i) e inputs state).result ∧
      (timerOff (.int i) e inputs (some next)).state.map (ElementState.core .timerOff) =
        some (ElementState.core .timerOff next) := by
  have hstep : ∃ t, timerOff (.int i) e inputs state =
      timerOff (.int i) e inputs (some (.timer t)) := by
    rcases state with _ | ⟨t⟩ | ⟨c⟩
    · exact ⟨{}, rfl⟩
    · exact ⟨t, rfl⟩
    · cases h
  obtain ⟨t, ht⟩ := hstep
  rw [ht] at h ⊢
  obtain ⟨left, on, hleft, rfl⟩ := state_ofTimer h
  obtain ⟨again, hagain, same⟩ := Timer.offDelay_again positive hleft
  simp only [timerOff, hleft, hagain]
  exact ⟨rfl, congrArg (fun t => some (ElementState.timer t)) same⟩

private theorem counter_again {set : Bool} {fresh : Counter} {step : Counter → Counter × Bool}
    (again : ∀ c, step (step c).1 = step c) {state : Option ElementState} {next : ElementState}
    (h : (counter e set fresh step state).state = some next) :
    counter e set fresh step (some next) = counter e set fresh step state := by
  have hstep : ∃ c, counter e set fresh step state = counter e set fresh step (some (.counter c)) := by
    rcases state with _ | ⟨t⟩ | ⟨c⟩
    · exact ⟨fresh, rfl⟩
    · by_cases hset : set = true
      · refine ⟨fresh, ?_⟩
        simp only [counter, hset, if_true]
      · simp only [counter, hset, Bool.false_eq_true, if_false] at h
        cases h
    · exact ⟨c, rfl⟩
  obtain ⟨c, hc⟩ := hstep
  rw [hc] at h ⊢
  obtain rfl : .counter (step c).1 = next := Option.some.inj h
  simp only [counter, again]

/-- What an element computes from its inputs it computes from them again, in the state it has left. -/
private theorem compute_again {i : Int} (hnow : w.now = .int i)
    (positive : e.kind = .timerOff → 0 < Preset.duration e.preset) {inputs : Table Signal}
    {state : Option ElementState} {next : ElementState}
    (h : (compute w e inputs state).state = some next) :
    (compute w e inputs (some next)).result = (compute w e inputs state).result ∧
      (compute w e inputs (some next)).state.map (ElementState.core e.kind) =
        some (ElementState.core e.kind next) := by
  cases hkind : e.kind with
  | timerOn =>
    simp only [compute, hkind, hnow] at h ⊢
    rw [timerOn_again h, h]
    exact ⟨rfl, rfl⟩
  | timerOff =>
    simp only [compute, hkind, hnow] at h ⊢
    exact timerOff_again (positive hkind) h
  | counterUp =>
    simp only [compute, hkind, counterUp] at h ⊢
    rw [counter_again (fun c => Counter.up_again _ _ _ c) h, h]
    exact ⟨rfl, rfl⟩
  | counterDown =>
    simp only [compute, hkind, counterDown] at h ⊢
    rw [counter_again (fun c => Counter.down_again _ _ _ c) h, h]
    exact ⟨rfl, rfl⟩
  | _ =>
    simp only [compute, hkind] at h
    cases h

/-- The state that an element has after it has been computed from a state. -/
def Computed.leaves (c : Computed) (state : Option ElementState) : Option ElementState :=
  c.state.or state

private theorem result_ne_of_state_settle {c : Computed} {next : ElementState}
    (h : (c.settle e).state = some next) : c.result ≠ .error .tooLarge := by
  intro hlarge
  simp only [Computed.settle, hlarge] at h
  cases h

/-- Numbers that do not go together leave the state as it is, so they are found again as well. -/
theorem settle_again {i : Int} (hnow : w.now = .int i)
    (positive : e.kind = .timerOff → 0 < Preset.duration e.preset) (inputs : Table Signal)
    (state : Option ElementState) :
    let first := (compute w e inputs state).settle e
    let second := (compute w e inputs (first.leaves state)).settle e
    second.result = first.result ∧
      (second.leaves (first.leaves state)).map (ElementState.core e.kind) =
        (first.leaves state).map (ElementState.core e.kind) := by
  intro first second
  rcases hfirst : first.state with _ | next
  · have hleaves : first.leaves state = state := by rw [Computed.leaves, hfirst, Option.none_or]
    have hsecond : second = first := by simp only [second, hleaves, first]
    rw [hsecond, hleaves, hleaves]
    exact ⟨rfl, rfl⟩
  · have hleaves : first.leaves state = some next := by rw [Computed.leaves, hfirst, Option.some_or]
    have hresult := result_ne_of_state_settle hfirst
    have hsame : first = compute w e inputs state := Computed.settle_of_ne hresult e
    rw [hsame] at hfirst
    obtain ⟨hagain, hcore⟩ := compute_again hnow positive hfirst
    have hsecond : second = compute w e inputs (some next) := by
      simp only [second, hleaves]
      exact Computed.settle_of_ne (hagain ▸ hresult) e
    rw [hleaves, hsecond, hsame]
    refine ⟨hagain, ?_⟩
    rw [Computed.leaves, Option.map_or, hcore, Option.some_or, Option.map_some]

end Scan

end RungLogic
