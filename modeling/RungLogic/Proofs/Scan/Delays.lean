import RungLogic.Proofs.Scan.Visits

/-!
Delays: what timers make of their input over time. An on-delay timer runs since its input went on, and
is on once it has run for the preset. An off-delay timer is on with its input, and until the preset
has passed since its input last went off, whatever came before that.
-/

set_option autoImplicit false
set_option relaxedAutoImplicit false

namespace RungLogic

namespace Timer

open Scan (OnSince LastFall rises falls rises_succ falls_succ lastFall_succ_iff)

/-- An on-delay timer after the evaluation at `k`, where `b` are its inputs and `t` the readings of the
clock. -/
inductive OnDelayed (b : Nat → Bool) (t : Nat → Int) (k : Nat) : Timer → Prop
  | resting : b k = false → OnDelayed b t k {}
  | running {i : Nat} : OnSince b i k →
      OnDelayed b t k { running := true, start := .int (t i), elapsed := .int (t k - t i) }

/-- An off-delay timer after the evaluation at `k`: it runs while the preset has not passed since its
input last went off. -/
structure OffDelayed (b : Nat → Bool) (t : Nat → Int) (preset k : Nat) (timer : Timer) : Prop where
  wasOn : timer.wasOn = b k
  start : timer.running = true →
    ∃ i, LastFall b i k ∧ t k - t i < preset ∧ timer.start = .int (t i)
  running : ∀ i, LastFall b i k → t k - t i < preset → timer.running = true

variable {b : Nat → Bool} {t : Nat → Int} {preset k : Nat} {timer : Timer}

private theorem OnDelayed.started (h : rises b k = true) :
    OnDelayed b t k { running := true, start := .int (t k) } := by
  have running : OnDelayed b t k _ := .running (.refl h)
  rwa [Int.sub_self] at running

private theorem OnDelayed.first (b : Nat → Bool) (t : Nat → Int) :
    ∃ next, onDelayNext (b 0) (.int (t 0)) {} = some next ∧ OnDelayed b t 0 next := by
  rcases hb : b 0 with _ | _
  · exact ⟨_, rfl, .resting hb⟩
  · exact ⟨_, rfl, .started (by rw [rises, hb]; rfl)⟩

private theorem OnDelayed.next (h : OnDelayed b t k timer) :
    ∃ next, timer.onDelayNext (b (k + 1)) (.int (t (k + 1))) = some next ∧
      OnDelayed b t (k + 1) next := by
  rcases hb : b (k + 1) with _ | _
  · exact ⟨_, rfl, .resting hb⟩
  · cases h with
    | resting off => exact ⟨_, rfl, .started (by rw [rises_succ, hb, off]; rfl)⟩
    | running since => exact ⟨_, rfl, .running (since.succ hb)⟩

private theorem OnDelayed.on_iff (h : OnDelayed b t k timer) (positive : 0 < preset) :
    timer.elapsed.ge (.int preset) = true ↔
      b k = true ∧ ∃ i, OnSince b i k ∧ preset ≤ t k - t i := by
  cases h with
  | resting off =>
    rw [Number.ge_int, decide_eq_true_iff, off]
    constructor
    · intro passed
      omega
    · rintro ⟨on, -⟩
      cases on
  | @running i since =>
    rw [Number.ge_int, decide_eq_true_iff]
    constructor
    · intro passed
      exact ⟨since.on k since.le (Nat.le_refl k), i, since, passed⟩
    · rintro ⟨-, j, since', passed⟩
      rwa [since.unique since']

private theorem OffDelayed.first (b : Nat → Bool) (t : Nat → Int) (preset : Nat) :
    ∃ next, offDelayNext (b 0) preset (.int (t 0)) {} = some next ∧ OffDelayed b t preset 0 next := by
  refine ⟨{ wasOn := b 0 }, ?_, rfl, nofun, fun i last => ?_⟩
  · simp [offDelayNext]
  · obtain rfl := Nat.le_zero.mp last.le
    cases last.falls

/-- The preset has to be positive, or a timer that starts would not run. -/
private theorem OffDelayed.next (h : OffDelayed b t preset k timer) (positive : 0 < preset)
    (ordered : t k ≤ t (k + 1)) :
    ∃ next, timer.offDelayNext (b (k + 1)) preset (.int (t (k + 1))) = some next ∧
      OffDelayed b t preset (k + 1) next := by
  have edge : (!b (k + 1) && timer.wasOn) = falls b (k + 1) := by
    rw [falls_succ, h.wasOn, Bool.and_comm]
  rcases hfalls : falls b (k + 1) with _ | _
  case true =>
    have off : b (k + 1) = false := by
      simpa using (Bool.and_eq_true_iff.mp hfalls).2
    refine ⟨{ running := true, start := .int (t (k + 1)) }, ?_, off.symm, fun _ => ?_, ?_⟩
    · simp only [offDelayNext, edge, hfalls, if_true]
    · exact ⟨k + 1, .refl hfalls, by omega, rfl⟩
    · intro i last early
      rfl
  case false =>
    rcases hrunning : timer.running with _ | _
    case false =>
      refine ⟨{ wasOn := b (k + 1) }, ?_, rfl, nofun, ?_⟩
      · simp only [offDelayNext, edge, hfalls, hrunning, Bool.false_eq_true, if_false]
      -- What would keep the timer running now would have kept it running at the reading before.
      · intro i last early
        have last' := (lastFall_succ_iff hfalls).mp last
        have := h.running i last' (by omega)
        rw [hrunning] at this
        cases this
    case true =>
      obtain ⟨i, last, -, hstart⟩ := h.start hrunning
      have last' := (lastFall_succ_iff hfalls).mpr last
      have steps : timer.offDelayNext (b (k + 1)) preset (.int (t (k + 1))) =
          some (if (Number.int (t (k + 1) - t i)).ge (.int preset) then
              { elapsed := .int preset, wasOn := b (k + 1) }
            else
              { running := true, start := .int (t i), elapsed := .int (t (k + 1) - t i),
                wasOn := b (k + 1) }) := by
        simp only [offDelayNext, edge, hfalls, hrunning, hstart, Number.sub?_int, Option.map_some,
          Bool.false_eq_true, if_false, if_true]
      rw [steps, Number.ge_int]
      by_cases passed : (preset : Int) ≤ t (k + 1) - t i
      · refine ⟨_, rfl, ?_⟩
        rw [if_pos (decide_eq_true passed)]
        refine ⟨rfl, nofun, fun j last early => ?_⟩
        rw [last.unique last'] at early
        omega
      · refine ⟨_, rfl, ?_⟩
        rw [if_neg (by simpa using passed)]
        exact ⟨rfl, fun _ => ⟨i, last', by omega, rfl⟩, fun _ _ _ => rfl⟩

private theorem OffDelayed.running_iff (h : OffDelayed b t preset k timer) :
    timer.running = true ↔ ∃ i, LastFall b i k ∧ t k - t i < preset := by
  constructor
  · intro running
    obtain ⟨i, last, early, -⟩ := h.start running
    exact ⟨i, last, early⟩
  · rintro ⟨i, last, early⟩
    exact h.running i last early

end Timer

namespace Scan

variable {e : Element} {v : Nat → Visit} {k : Nat} {b : Nat → Bool} {t : Nat → Int}

private theorem compute_timerOn (kind : e.kind = .timerOn) (w : Surroundings) (inputs : Table Signal)
    {state : Option ElementState} {timer : Timer} (h : state.getD (.timer {}) = .timer timer) :
    compute w e inputs state =
      ofTimer (timer.onDelay (isOn inputs "in") (Preset.duration e.preset) w.now) := by
  simp only [compute, kind]
  rcases state with _ | ⟨t⟩ | ⟨c⟩
  · cases h
    rfl
  · cases h
    rfl
  · cases h

private theorem compute_timerOff (kind : e.kind = .timerOff) (w : Surroundings) (inputs : Table Signal)
    {state : Option ElementState} {timer : Timer} (h : state.getD (.timer {}) = .timer timer) :
    compute w e inputs state =
      ofTimer (timer.offDelay (isOn inputs "in") (Preset.duration e.preset) w.now) := by
  simp only [compute, kind]
  rcases state with _ | ⟨t⟩ | ⟨c⟩
  · cases h
    rfl
  · cases h
    rfl
  · cases h

/-- What a timer keeps to at each visit, from the step it makes there. -/
private theorem Visited.timer (visited : Visited e v k) (step : Nat → Timer → Option (Timer × Bool))
    (holds : Nat → Timer → Bool → Prop)
    (computes : ∀ i ≤ k, ∀ timer, ((v i).found e).getD (.timer {}) = .timer timer →
      (v i).computes e = ofTimer (step i timer))
    (first : ∃ next on, step 0 {} = some (next, on) ∧ holds 0 next on)
    (next : ∀ i < k, ∀ timer on, holds i timer on →
      ∃ next on, step (i + 1) timer = some (next, on) ∧ holds (i + 1) next on) :
    ∃ timer on, (v k).result e = .ok (.truth on) ∧ (v k).left e = some (.timer timer) ∧
      holds k timer on := by
  obtain ⟨s, state, hresult, hleft, timer, on, rfl, rfl, h⟩ := visited.run
    (fun i s state => ∃ timer on, s = .truth on ∧ state = .timer timer ∧ holds i timer on)
    (by
      intro found
      obtain ⟨next, on, hstep, h⟩ := first
      have computed := computes 0 (Nat.zero_le k) {} (by rw [found]; rfl)
      rw [computed, hstep]
      exact ⟨_, _, rfl, rfl, next, on, rfl, rfl, h⟩)
    (by
      rintro i hi s state ⟨timer, on, rfl, rfl, h⟩ found
      obtain ⟨next, on, hstep, h⟩ := next i hi timer on h
      have computed := computes (i + 1) hi timer (by rw [found]; rfl)
      rw [computed, hstep]
      exact ⟨_, _, rfl, rfl, next, on, rfl, rfl, h⟩)
  exact ⟨timer, on, hresult, hleft, h⟩

private theorem Visited.onDelayed (visited : Visited e v k) (kind : e.kind = .timerOn)
    (input : ∀ i ≤ k, isOn (v i).inputs "in" = b i)
    (reading : ∀ i ≤ k, (v i).around.now = .int (t i)) :
    ∃ timer on, (v k).result e = .ok (.truth on) ∧ (v k).left e = some (.timer timer) ∧
      Timer.OnDelayed b t k timer ∧ on = timer.elapsed.ge (.int (Preset.duration e.preset)) := by
  refine visited.timer (fun i timer => timer.onDelay (b i) (Preset.duration e.preset) (.int (t i)))
    (fun i timer on => Timer.OnDelayed b t i timer ∧
      on = timer.elapsed.ge (.int (Preset.duration e.preset))) ?_ ?_ ?_
  · intro i hi timer found
    rw [Visit.computes, compute_timerOn kind _ _ found, input i hi, reading i hi]
  · obtain ⟨next, hnext, h⟩ := Timer.OnDelayed.first b t
    exact ⟨next, _, by rw [Timer.onDelay, hnext]; rfl, h, rfl⟩
  · rintro i - timer on ⟨h, -⟩
    obtain ⟨next, hnext, h⟩ := h.next
    exact ⟨next, _, by rw [Timer.onDelay, hnext]; rfl, h, rfl⟩

private theorem Visited.offDelayed (visited : Visited e v k) (kind : e.kind = .timerOff)
    (positive : 0 < Preset.duration e.preset) (input : ∀ i ≤ k, isOn (v i).inputs "in" = b i)
    (reading : ∀ i ≤ k, (v i).around.now = .int (t i)) (ordered : ∀ i < k, t i ≤ t (i + 1)) :
    ∃ timer on, (v k).result e = .ok (.truth on) ∧ (v k).left e = some (.timer timer) ∧
      Timer.OffDelayed b t (Preset.duration e.preset) k timer ∧ on = (b k || timer.running) := by
  refine visited.timer (fun i timer => timer.offDelay (b i) (Preset.duration e.preset) (.int (t i)))
    (fun i timer on => Timer.OffDelayed b t (Preset.duration e.preset) i timer ∧
      on = (b i || timer.running)) ?_ ?_ ?_
  · intro i hi timer found
    rw [Visit.computes, compute_timerOff kind _ _ found, input i hi, reading i hi]
  · obtain ⟨next, hnext, h⟩ := Timer.OffDelayed.first b t (Preset.duration e.preset)
    exact ⟨next, _, by rw [Timer.offDelay, hnext]; rfl, h, rfl⟩
  · rintro i hi timer on ⟨h, -⟩
    obtain ⟨next, hnext, h⟩ := h.next positive (ordered i hi)
    exact ⟨next, _, by rw [Timer.offDelay, hnext]; rfl, h, rfl⟩

theorem portSignal_elapsed (kind : e.kind.isTimer = true) {states : Table ElementState}
    {timer : Timer} (h : states.value? e.id = some (.timer timer)) (s : Signal) :
    portSignal states e "et" s = .ok (.num timer.elapsed) := by
  simp only [portSignal, kind, h, decide_true, Bool.and_self, if_true]

/-- An on-delay timer follows its input. While the input is off the timer is at rest; while it is on,
the timer runs since the input went on, the port of the elapsed time shows for how long, and the timer
is on once that is the preset. -/
theorem onDelay_follows_input (visited : Visited e v k) (kind : e.kind = .timerOn)
    (positive : 0 < Preset.duration e.preset) (input : ∀ i ≤ k, isOn (v i).inputs "in" = b i)
    (reading : ∀ i ≤ k, (v i).around.now = .int (t i)) :
    ∃ timer on, (v k).result e = .ok (.truth on) ∧ (v k).left e = some (.timer timer) ∧
      (∀ s, portSignal ((v k).states e) e "et" s = .ok (.num timer.elapsed)) ∧
      (b k = false → timer = {}) ∧
      (b k = true → ∃ j, OnSince b j k ∧
        timer = { running := true, start := .int (t j), elapsed := .int (t k - t j) }) ∧
      (on = true ↔ b k = true ∧ ∃ j, OnSince b j k ∧ Preset.duration e.preset ≤ t k - t j) := by
  obtain ⟨timer, on, hresult, hleft, delayed, rfl⟩ := visited.onDelayed kind input reading
  refine ⟨timer, _, hresult, hleft, portSignal_elapsed (by rw [kind]; rfl) hleft, ?_, ?_,
    delayed.on_iff positive⟩
  · intro off
    cases delayed with
    | resting => rfl
    | running since => rw [since.on k since.le (Nat.le_refl k)] at off; cases off
  · intro on
    cases delayed with
    | resting off => rw [off] at on; cases on
    | @running j since => exact ⟨j, since, rfl⟩

/-- Visits of a timer with these inputs at these readings. -/
def Visit.ofInputs (e : Element) (b : Nat → Bool) (t : Nat → Int) : Nat → Visit :=
  chain e (fun i => ⟨⟨"n", [e], []⟩, [], .int (t i), false⟩) fun i => [("in", .truth (b i))]

private theorem Visit.isOn_ofInputs (e : Element) (b : Nat → Bool) (t : Nat → Int) (i : Nat) :
    isOn (ofInputs e b t i).inputs "in" = b i := by
  rw [ofInputs, inputs_chain]
  rfl

private theorem Visit.now_ofInputs (e : Element) (b : Nat → Bool) (t : Nat → Int) (i : Nat) :
    (ofInputs e b t i).around.now = .int (t i) := by
  rw [ofInputs, around_chain]

/-- A timer of two seconds that is evaluated twice at the reading at which its input goes on. -/
theorem delay_follows_switch :
    let delay : Element := ⟨"delay", .timerOn, {}, [("preset", .text "T#2s")]⟩
    let b : Nat → Bool := fun i => [false, true, true, true].getD i false
    let t : Nat → Int := fun i => [0, 500, 500, 2500].getD i 0
    let v := Visit.ofInputs delay b t
    Visited delay v 3 ∧ 0 < Preset.duration delay.preset ∧
      (∀ i ≤ 3, isOn (v i).inputs "in" = b i) ∧ (∀ i ≤ 3, (v i).around.now = .int (t i)) ∧
      (v 3).result delay = .ok (.truth true) ∧
      (v 3).left delay =
        some (.timer { running := true, start := .int 500, elapsed := .int 2000 }) ∧
      portSignal ((v 3).states delay) delay "et" (.truth true) = .ok (.num (.int 2000)) := by
  intro delay b t v
  have visited : Visited delay v 3 := visited_chain _ _ _ 3
  have input : ∀ i ≤ 3, isOn (v i).inputs "in" = b i := fun i _ => Visit.isOn_ofInputs delay b t i
  have reading : ∀ i ≤ 3, (v i).around.now = .int (t i) :=
    fun i _ => Visit.now_ofInputs delay b t i
  obtain ⟨timer, on, hresult, hleft, elapsed, -, runs, on_iff⟩ :=
    onDelay_follows_input visited rfl (by decide) input reading
  have since : OnSince b 1 3 := (OnSince.refl (by decide)).succ (by decide) |>.succ (by decide)
  obtain ⟨j, since', rfl⟩ := runs (by decide)
  obtain rfl := since.unique since'
  obtain rfl : on = true := on_iff.mpr ⟨by decide, 1, since, by decide⟩
  exact ⟨visited, by decide, input, reading, hresult, hleft, elapsed _⟩

/-- An off-delay timer is on with its input, and after the last fall of the input until the preset has
passed. So each time that the input goes off and stays off the timer holds for the preset, whatever
came before, and it is never on before its input has been. -/
theorem offDelay_holds_for_preset (visited : Visited e v k) (kind : e.kind = .timerOff)
    (positive : 0 < Preset.duration e.preset) (input : ∀ i ≤ k, isOn (v i).inputs "in" = b i)
    (reading : ∀ i ≤ k, (v i).around.now = .int (t i)) (ordered : ∀ i < k, t i ≤ t (i + 1)) :
    ∃ on, (v k).result e = .ok (.truth on) ∧
      (on = true ↔ b k = true ∨ ∃ i, LastFall b i k ∧ t k - t i < Preset.duration e.preset) ∧
      (∀ i ≤ k, falls b i = true → (∀ j, i ≤ j → j ≤ k → b j = false) →
        (on = true ↔ t k - t i < Preset.duration e.preset)) ∧
      ((∀ i ≤ k, b i = false) → on = false) := by
  obtain ⟨timer, on, hresult, -, delayed, rfl⟩ :=
    visited.offDelayed kind positive input reading ordered
  have on_iff : (b k || timer.running) = true ↔
      b k = true ∨ ∃ i, LastFall b i k ∧ t k - t i < Preset.duration e.preset := by
    rw [Bool.or_eq_true, delayed.running_iff]
  refine ⟨_, hresult, on_iff, ?_, ?_⟩
  · intro i hi hfalls off
    have last : LastFall b i k := .of_off hfalls hi off
    rw [on_iff, off k hi (Nat.le_refl k)]
    constructor
    · rintro (on | ⟨j, last', early⟩)
      · cases on
      · rwa [last.unique last']
    · intro early
      exact .inr ⟨i, last, early⟩
  · intro off
    rw [Bool.eq_false_iff, Ne, on_iff, off k (Nat.le_refl k)]
    rintro (on | ⟨i, last, -⟩)
    · cases on
    · have hfalls := last.falls
      rw [not_falls_of_off off last.le] at hfalls
      cases hfalls

/-- The switch goes off, on again while the timer holds, and off for good. -/
theorem stay_holds_for_preset :
    let stay : Element := ⟨"stay", .timerOff, {}, [("preset", .text "T#2s")]⟩
    let b : Nat → Bool := fun i => [true, false, true, false].getD i false
    let t : Nat → Int := fun i => [0, 100, 300, 400, 2399, 2400].getD i 2400
    let v := Visit.ofInputs stay b t
    Visited stay v 5 ∧ 0 < Preset.duration stay.preset ∧
      (∀ i ≤ 5, isOn (v i).inputs "in" = b i) ∧ (∀ i ≤ 5, (v i).around.now = .int (t i)) ∧
      (∀ i < 5, t i ≤ t (i + 1)) ∧
      (v 4).result stay = .ok (.truth true) ∧ (v 5).result stay = .ok (.truth false) := by
  intro stay b t v
  have visited : ∀ k, Visited stay v k := visited_chain _ _ _
  have input : ∀ i, isOn (v i).inputs "in" = b i := Visit.isOn_ofInputs stay b t
  have reading : ∀ i, (v i).around.now = .int (t i) := Visit.now_ofInputs stay b t
  have ordered : ∀ i < 5, t i ≤ t (i + 1) := by decide
  have off : ∀ j, 3 ≤ j → b j = false := by
    intro j hj
    match j, hj with
    | 3, _ => rfl
    | j + 4, _ => rfl
  obtain ⟨on, result, -, hold, -⟩ := offDelay_holds_for_preset (visited 4) rfl (by decide)
    (fun i _ => input i) (fun i _ => reading i) fun i hi => ordered i (Nat.lt_succ_of_lt hi)
  obtain ⟨on', result', -, hold', -⟩ := offDelay_holds_for_preset (visited 5) rfl (by decide)
    (fun i _ => input i) (fun i _ => reading i) ordered
  obtain rfl : on = true :=
    (hold 3 (by decide) rfl fun j hj _ => off j hj).mpr (by decide)
  obtain rfl : on' = false := by
    rw [Bool.eq_false_iff, Ne, hold' 3 (by decide) rfl fun j hj _ => off j hj]
    decide
  exact ⟨visited 5, by decide, fun i _ => input i, fun i _ => reading i, ordered, result, result'⟩

end Scan

end RungLogic
